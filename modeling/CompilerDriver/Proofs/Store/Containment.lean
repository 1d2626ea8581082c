import CompilerDriver.Proofs.Store.Contract

/-!
# A directory stays below its root

What a directory store finds is said by names: `Node.Holds` is a node of the tree at a list of
names, and `names` are the components of a path without the empty ones and the dots. The main
result is `answers_below_root`: a store has a file exactly at the paths that are relative, do not
climb, can be followed and whose names lead to a file, so its answers depend on nothing outside.
-/

namespace CompilerDriver.Store

/-- Whether a component of a path stays where it is. -/
def isIdle (name : String) : Bool := name = "" || name = "."

/-- The components of a path that name something. -/
def names (path : String) : List String := (components path).filter fun name ↦ !isIdle name

/-- A path that neither begins at the top nor climbs. -/
structure Below (path : String) : Prop where
  relative : path.toList.head? ≠ some '/'
  inward : ".." ∉ components path

theorem isContained_iff {path : String} : Directory.isContained path = true ↔ Below path := by
  rw [Directory.isContained, Bool.and_eq_true, Bool.not_eq_true', List.all_eq_true]
  constructor
  · rintro ⟨hhead, hall⟩
    exact ⟨fun h ↦ by simp [h] at hhead, fun hmem ↦ by simpa using hall _ hmem⟩
  · rintro ⟨hhead, hup⟩
    refine ⟨?_, fun name hname ↦ decide_eq_true fun heq ↦ hup (heq ▸ hname)⟩
    cases hfirst : path.toList.head? with
    | none => rfl
    | some c => simpa [hfirst] using hhead

theorem isIdle_iff {name : String} : isIdle name = true ↔ name = "" ∨ name = "." := by
  simp [isIdle]

/-- Components that end in a name. -/
def EndsInName (comps : List String) : Prop := ∀ last ∈ comps.getLast?, isIdle last = false

theorem endsInName_cons {name : String} {rest : List String} :
    EndsInName (name :: rest) ↔ (rest = [] → isIdle name = false) ∧ EndsInName rest := by
  cases rest <;> simp [EndsInName]

namespace Node

/-- A tree has a node at a list of names, each of them an entry of the directory before it. -/
inductive Holds : Node → List String → Node → Prop
  | here {n : Node} : Holds n [] n
  | inside {entries : List (String × Node)} {name : String} {inner m : Node} {rest : List String}
      (hfind : Entries.find? name entries = some inner) (hrest : Holds inner rest m) :
      Holds (.directory entries) (name :: rest) m

variable {a b n m : Node} {name : String} {comps : List String} {bytes : List UInt8} {e : OsError}

/-- Components lead to the file at their names, and only if they end in a name. -/
theorem Leads.holds (h : n.Leads comps (.file bytes)) :
    (∀ name ∈ comps, isIdle name = false → name.utf8ByteSize ≤ nameLimit) ∧ EndsInName comps ∧
      n.Holds (comps.filter fun name ↦ !isIdle name) (.file bytes) := by
  induction comps generalizing n with
  | nil =>
      cases h
      exact ⟨by simp, by simp [EndsInName], .here⟩
  | cons name rest ih =>
      cases h with
      | step hstep hrest =>
          obtain ⟨hsizes, hends, hholds⟩ := ih hrest
          cases hstep with
          | stay hidle =>
              have hidle : isIdle name = true := isIdle_iff.mpr hidle
              refine ⟨by simpa [hidle] using hsizes, endsInName_cons.mpr ⟨?_, hends⟩, ?_⟩
              · rintro rfl
                cases hrest
              · simpa [hidle] using hholds
          | enter hidle hup hsize hfind =>
              have hidle : isIdle name = false := by rwa [← Bool.not_eq_true, isIdle_iff]
              refine ⟨by simpa [hidle, hsize] using hsizes,
                endsInName_cons.mpr ⟨fun _ ↦ hidle, hends⟩, ?_⟩
              simpa [hidle] using Holds.inside hfind hholds

/-- A file at the names of components that can be taken and end in a name is where they lead. -/
theorem Holds.leads (hup : ".." ∉ comps)
    (hsizes : ∀ name ∈ comps, isIdle name = false → name.utf8ByteSize ≤ nameLimit)
    (hends : EndsInName comps)
    (h : n.Holds (comps.filter fun name ↦ !isIdle name) (.file bytes)) :
    n.Leads comps (.file bytes) := by
  induction comps generalizing n with
  | nil =>
      cases h
      exact .here
  | cons name rest ih =>
      obtain ⟨hname, hup⟩ := not_or.mp (mt List.mem_cons.mpr hup)
      obtain ⟨hlast, hends⟩ := endsInName_cons.mp hends
      have hsizes' := fun name hmem ↦ hsizes name (List.mem_cons_of_mem _ hmem)
      cases hidle : isIdle name with
      | true =>
          -- what is left has a name, so the walk stands in a directory
          obtain ⟨last, hlast⟩ : ∃ last, rest.getLast? = some last := by
            cases hrest : rest.getLast? with
            | some last => exact ⟨last, rfl⟩
            | none => simp [hidle, List.getLast?_eq_none_iff.mp hrest] at hlast
          have hmem : last ∈ rest.filter fun name ↦ !isIdle name :=
            List.mem_filter.mpr ⟨List.mem_of_getLast? hlast, by simp [hends last hlast]⟩
          have hrest : n.Holds (rest.filter fun name ↦ !isIdle name) (.file bytes) := by
            simpa [hidle] using h
          have hleads := ih hup hsizes' hends hrest
          cases n with
          | directory entries => exact .step (.stay (isIdle_iff.mp hidle)) hleads
          | file =>
              cases hnames : rest.filter fun name ↦ !isIdle name with
              | nil => simp [hnames] at hmem
              | cons =>
                  rw [hnames] at hrest
                  cases hrest
      | false =>
          simp only [List.filter_cons, hidle, Bool.not_false, if_true] at h
          cases h with
          | inside hfind hrest =>
              have hnot : ¬(name = "" ∨ name = ".") := by simp [← isIdle_iff, hidle]
              exact .step (.enter hnot (Ne.symm hname) (hsizes _ List.mem_cons_self hidle) hfind)
                (ih hup hsizes' hends hrest)

/-- Two trees have the same files and the same directories at the same names. -/
structure Agrees (a b : Node) : Prop where
  file : ∀ names bytes, a.Holds names (.file bytes) ↔ b.Holds names (.file bytes)
  directory : ∀ names, (∃ entries, a.Holds names (.directory entries)) ↔
    ∃ entries, b.Holds names (.directory entries)

namespace Agrees

theorem refl (a : Node) : a.Agrees a := ⟨fun _ _ ↦ .rfl, fun _ ↦ .rfl⟩

theorem symm (h : a.Agrees b) : b.Agrees a :=
  ⟨fun names bytes ↦ (h.file names bytes).symm, fun names ↦ (h.directory names).symm⟩

theorem eq_file (h : Node.Agrees (.file bytes) b) : b = .file bytes := by
  have hholds := (h.file [] bytes).mp .here
  cases hholds
  rfl

theorem eq_directory {entries : List (String × Node)} (h : Node.Agrees (.directory entries) b) :
    ∃ others, b = .directory others := by
  obtain ⟨others, hholds⟩ := (h.directory []).mp ⟨entries, .here⟩
  cases hholds
  exact ⟨others, rfl⟩

theorem holds_inside {entries : List (String × Node)} {inner : Node} {rest : List String}
    (hfind : Entries.find? name entries = some inner) :
    Holds (.directory entries) (name :: rest) m ↔ inner.Holds rest m := by
  refine ⟨fun h ↦ ?_, .inside hfind⟩
  cases h with
  | inside hfind' hrest =>
      cases hfind.symm.trans hfind'
      exact hrest

/-- The entries of one name agree. -/
theorem entry {entries others : List (String × Node)} {inner : Node}
    (h : Node.Agrees (.directory entries) (.directory others))
    (hfind : Entries.find? name entries = some inner) :
    ∃ other, Entries.find? name others = some other ∧ inner.Agrees other := by
  obtain ⟨other, hother⟩ : ∃ other, Entries.find? name others = some other := by
    have hhere : Holds (.directory entries) [name] inner := .inside hfind .here
    cases inner with
    | file bytes =>
        cases (h.file [name] bytes).mp hhere with
        | inside hfind' => exact ⟨_, hfind'⟩
    | directory deeper =>
        obtain ⟨_, hholds⟩ := (h.directory [name]).mp ⟨deeper, hhere⟩
        cases hholds with
        | inside hfind' => exact ⟨_, hfind'⟩
  refine ⟨other, hother, fun names bytes ↦ ?_, fun names ↦ ?_⟩
  · simpa only [holds_inside hfind, holds_inside hother] using h.file (name :: names) bytes
  · simpa only [holds_inside hfind, holds_inside hother] using h.directory (name :: names)

theorem steps (h : a.Agrees b) (hstep : a.Steps name n) : ∃ m, b.Steps name m ∧ n.Agrees m := by
  cases hstep with
  | stay hidle =>
      obtain ⟨others, rfl⟩ := h.eq_directory
      exact ⟨_, .stay hidle, h⟩
  | enter hidle hup hsize hfind =>
      obtain ⟨others, rfl⟩ := h.eq_directory
      obtain ⟨other, hother, hagrees⟩ := h.entry hfind
      exact ⟨other, .enter hidle hup hsize hother, hagrees⟩

theorem refuses (h : a.Agrees b) (href : a.Refuses name e) : b.Refuses name e := by
  cases href with
  | file =>
      obtain rfl := h.eq_file
      exact .file
  | long hidle hup hsize =>
      obtain ⟨others, rfl⟩ := h.eq_directory
      exact .long hidle hup hsize
  | missing hidle hup hsize hfind =>
      obtain ⟨others, rfl⟩ := h.eq_directory
      refine .missing hidle hup hsize (Option.eq_none_iff_forall_ne_some.mpr fun other hother ↦ ?_)
      obtain ⟨inner, hinner, -⟩ := h.symm.entry hother
      cases hfind.symm.trans hinner

theorem leads (h : a.Agrees b) (hleads : a.Leads comps n) : ∃ m, b.Leads comps m ∧ n.Agrees m := by
  induction hleads generalizing b with
  | here => exact ⟨b, .here, h⟩
  | step hstep _ ih =>
      obtain ⟨inner, hstep', hinner⟩ := h.steps hstep
      obtain ⟨m, hrest, hm⟩ := ih hinner
      exact ⟨m, .step hstep' hrest, hm⟩

theorem blocked (h : a.Agrees b) (hblocked : a.Blocked comps e) : b.Blocked comps e := by
  induction hblocked generalizing b with
  | here href => exact .here (h.refuses href)
  | step hstep _ ih =>
      obtain ⟨inner, hstep', hinner⟩ := h.steps hstep
      exact .step hstep' (ih hinner)

end Agrees

end Node

namespace Directory

variable {d : Directory} {path text : String} {root : Node} {outward : List Node}

/-- A path that can be followed from the root to the file at its names. -/
structure Follows (d : Directory) (path : String) : Prop where
  admits : d.Admits path
  short : ∀ name ∈ components path, isIdle name = false → name.utf8ByteSize ≤ nameLimit
  ends : EndsInName (components path)

/-- The operating system opens a file exactly at the paths that can be followed to one. -/
theorem open?_eq_file {bytes : List UInt8} (hin : isContained path = true) :
    d.open? path = .ok (.file bytes) ↔
      d.Follows path ∧ d.root.Holds (names path) (.file bytes) := by
  have hup := components_of_contained hin
  constructor
  · intro h
    have hadmits : d.Admits path := by
      rw [open?_of_contained hin] at h
      split at h
      · cases h
      · rename_i hzero
        split at h
        · cases h
        · rename_i hshort
          exact ⟨hin, hzero, Nat.not_le.mp hshort⟩
    rw [hadmits.open?] at h
    obtain ⟨m, hleads, hfollow⟩ | ⟨e, -, hfollow⟩ := d.root.follow_cases hup d.outward
    · cases hfollow.symm.trans h
      obtain ⟨hshort, hends, hholds⟩ := hleads.holds
      exact ⟨⟨hadmits, hshort, hends⟩, hholds⟩
    · cases hfollow.symm.trans h
  · rintro ⟨hfollows, hholds⟩
    rw [hfollows.admits.open?]
    exact (hholds.leads hup hfollows.short hfollows.ends).follow d.outward

theorem textOf_eq_ok {n : Node} :
    textOf n = .ok text ↔ ∃ bytes, n = .file bytes ∧ text.toUTF8 = ⟨bytes.toArray⟩ := by
  constructor
  · intro h
    cases n with
    | directory => cases h
    | file bytes =>
        refine ⟨bytes, rfl, ?_⟩
        unfold textOf at h
        by_cases hvalid : (⟨bytes.toArray⟩ : ByteArray).IsValidUTF8
        · simp only [String.fromUTF8?, dif_pos hvalid] at h
          cases h
          rfl
        · simp only [String.fromUTF8?, dif_neg hvalid] at h
          cases h
  · rintro ⟨bytes, rfl, hbytes⟩
    exact textOf_file hbytes

/-- A store has a file exactly where one is found below the root. -/
theorem hasFile_iff : d.hasFile path = true ↔
    Below path ∧ d.Follows path ∧ ∃ bytes, d.root.Holds (names path) (.file bytes) := by
  have hopen : d.hasFile path = true ↔
      isContained path = true ∧ ∃ bytes, d.open? path = .ok (.file bytes) := by
    rw [hasFile, Bool.and_eq_true]
    refine and_congr_right fun _ ↦ ?_
    cases d.open? path with
    | error => simp
    | ok n => cases n <;> simp [Node.isDirectory]
  rw [hopen, ← isContained_iff]
  refine and_congr_right fun hin ↦ ?_
  simp only [open?_eq_file hin, exists_and_left]

/-- A store gives exactly the texts of the files that are found below the root. -/
theorem getFile_eq_ok : d.getFile path = .ok text ↔
    Below path ∧ d.Follows path ∧
      ∃ bytes, d.root.Holds (names path) (.file bytes) ∧ text.toUTF8 = ⟨bytes.toArray⟩ := by
  have hopen : d.getFile path = .ok text ↔
      isContained path = true ∧ ∃ bytes, d.open? path = .ok (.file bytes) ∧
        text.toUTF8 = ⟨bytes.toArray⟩ := by
    unfold getFile
    split
    · rename_i hin
      have hbind : (d.open? path).bind textOf = .ok text ↔
          ∃ bytes, d.open? path = .ok (.file bytes) ∧ text.toUTF8 = ⟨bytes.toArray⟩ := by
        cases d.open? path with
        | error => simp [Except.bind]
        | ok n => simp [Except.bind, textOf_eq_ok]
      simp only [hin, true_and, ← hbind]
      split <;> simp_all
    · rename_i hin
      simp [hin]
  rw [hopen, ← isContained_iff]
  refine and_congr_right fun hin ↦ ?_
  simp only [open?_eq_file hin, and_assoc, exists_and_left]

theorem textOf_agrees {n m : Node} (h : n.Agrees m) :
    n.isDirectory = m.isDirectory ∧ textOf n = textOf m := by
  cases n with
  | file bytes =>
      obtain rfl := h.eq_file
      exact ⟨rfl, rfl⟩
  | directory =>
      obtain ⟨others, rfl⟩ := h.eq_directory
      exact ⟨rfl, rfl⟩

variable {other : Directory}

/-- Trees that agree below the root are opened alike at paths that stay there. -/
theorem open?_agrees (hlocation : other.location = d.location) (hagrees : d.root.Agrees other.root)
    (hin : isContained path = true) :
    (∃ e, d.open? path = .error e ∧ other.open? path = .error e) ∨
      ∃ n m, d.open? path = .ok n ∧ other.open? path = .ok m ∧ n.Agrees m := by
  rw [open?_of_contained hin, open?_of_contained hin, hlocation]
  split
  · exact .inl ⟨_, rfl, rfl⟩
  split
  · exact .inl ⟨_, rfl, rfl⟩
  obtain ⟨n, hleads, hfollow⟩ | ⟨e, hblocked, hfollow⟩ :=
    d.root.follow_cases (components_of_contained hin) d.outward
  · obtain ⟨m, hleads', hm⟩ := hagrees.leads hleads
    exact .inr ⟨n, m, hfollow, hleads'.follow _, hm⟩
  · exact .inl ⟨e, hfollow, (hagrees.blocked hblocked).follow _⟩

/-- The answers of a store come from the tree below its root. -/
theorem answers_of_agrees (hlocation : other.location = d.location)
    (hagrees : d.root.Agrees other.root) (path : String) :
    other.hasFile path = d.hasFile path ∧ other.getFile path = d.getFile path := by
  cases hin : isContained path with
  | false => simp [hasFile, getFile, hin]
  | true =>
      obtain ⟨e, hopen, hother⟩ | ⟨n, m, hopen, hother, hnodes⟩ :=
        open?_agrees hlocation hagrees hin
      · simp only [hasFile, getFile, hopen, hother, and_self]
      · obtain ⟨hkind, htext⟩ := textOf_agrees hnodes
        simp only [hasFile, getFile, hopen, hother, hkind, Except.bind, htext, and_self]

/-- A store has a file, with the text it gives, exactly where the path is relative, does not climb,
can be followed, and names a file of the tree below the root. What lies outside does not count. -/
theorem answers_below_root (d : Directory) (path : String) :
    (d.hasFile path = true ↔
        Below path ∧ d.Follows path ∧ ∃ bytes, d.root.Holds (names path) (.file bytes)) ∧
      (∀ text, d.getFile path = .ok text ↔
        Below path ∧ d.Follows path ∧
          ∃ bytes, d.root.Holds (names path) (.file bytes) ∧ text.toUTF8 = ⟨bytes.toArray⟩) ∧
      ∀ (root : Node) (outward : List Node), d.root.Agrees root →
        { d with root := root, outward := outward }.hasFile path = d.hasFile path ∧
          { d with root := root, outward := outward }.getFile path = d.getFile path := by
  refine ⟨hasFile_iff, fun _ ↦ getFile_eq_ok, fun root outward hagrees ↦ ?_⟩
  have hlocation : { d with root := root, outward := outward }.location = d.location := rfl
  exact answers_of_agrees hlocation hagrees path

/-- Empty components and dots are passed over, and what lies around the root is not found. -/
theorem nested_file_found :
    oddDirectory.hasFile "./lib//B.sol" = true ∧
      (∃ bytes, oddDirectory.root.Holds ["lib", "B.sol"] (.file bytes)) ∧
      { oddDirectory with outward := [.directory [("A.sol", .file [0x61])]] }.getFile "../A.sol" =
        oddDirectory.getFile "../A.sol" := by
  have hhas : oddDirectory.hasFile "./lib//B.sol" = true := by decide +kernel
  have hnames : names "./lib//B.sol" = ["lib", "B.sol"] := by decide +kernel
  obtain ⟨-, -, hholds⟩ := (answers_below_root oddDirectory "./lib//B.sol").1.mp hhas
  exact ⟨hhas, hnames ▸ hholds,
    ((answers_below_root oddDirectory "../A.sol").2.2 _ _ (.refl _)).2⟩

end Directory

end CompilerDriver.Store
