import CompilerDriver.Proofs.Store.Paths
import CompilerDriver.Store.Memory

/-!
# What a store says it has and what it gives

A store keeps its contract at a path if it has a file there exactly when it gives a text, and does
not find a path where it has no file. Files in memory keep it everywhere. A directory keeps it
except where the operating system refuses a path for a reason other than absence, or where the
bytes of a file are no text: `Directory.Obstacle` lists these cases, and the main result is
`stores_contract_iff`.
-/

namespace CompilerDriver.Store

/-- A store has a file at a path exactly if it gives a text, and does not find it otherwise. -/
structure Contract (has : String → Bool) (get : String → Except Error String) (path : String) :
    Prop where
  has_iff : has path = true ↔ ∃ text, get path = .ok text
  absent : has path = false → get path = .error (.notFound path)

/-- Files in memory keep the contract. -/
theorem Memory.contract (m : Memory) (path : String) :
    Contract m.hasFile (fun p ↦ (m.read p).1) path := by
  cases hfind : Entries.find? path m.files with
  | some text => exact ⟨by simp [hasFile, read, getFile, hfind], by simp [hasFile, hfind]⟩
  | none => exact ⟨by simp [hasFile, read, getFile, hfind], by simp [read, getFile, hfind]⟩

namespace Directory

variable {d : Directory} {path : String} {e : OsError} {m : Node}

/-- A path below the root that can be handed to the operating system. -/
structure Admits (d : Directory) (path : String) : Prop where
  contained : isContained path = true
  noZero : '\x00' ∉ path.toList
  short : (joinPath d.location path).utf8ByteSize < pathLimit

/-- Why there is no text at a path below the root, other than that nothing is there. -/
inductive Obstacle (d : Directory) (path : String) : OsError → Prop
  | zeroByte (hin : isContained path = true) (hzero : '\x00' ∈ path.toList) :
      Obstacle d path .zeroByte
  | long (hin : isContained path = true) (hzero : '\x00' ∉ path.toList)
      (hlong : pathLimit ≤ (joinPath d.location path).utf8ByteSize) :
      Obstacle d path .nameTooLong
  | blocked {e : OsError} (hadmits : d.Admits path)
      (hblocked : d.root.Blocked (components path) e) (he : e ≠ .noEntry) : Obstacle d path e
  | directory {entries : List (String × Node)} (hadmits : d.Admits path)
      (hleads : d.root.Leads (components path) (.directory entries)) :
      Obstacle d path .isDirectory
  | undecodable {bytes : List UInt8} (hadmits : d.Admits path)
      (hleads : d.root.Leads (components path) (.file bytes))
      (hbytes : ∀ text : String, text.toUTF8 ≠ ⟨bytes.toArray⟩) : Obstacle d path .notText

theorem components_of_contained (h : isContained path = true) : ".." ∉ components path := by
  simp only [isContained, Bool.and_eq_true, List.all_eq_true] at h
  exact fun hmem ↦ by simpa using h.2 _ hmem

/-- How a path below the root is opened. -/
theorem open?_of_contained (h : isContained path = true) :
    d.open? path =
      if '\x00' ∈ path.toList then .error .zeroByte
      else if pathLimit ≤ (joinPath d.location path).utf8ByteSize then .error .nameTooLong
      else d.root.follow d.outward (components path) := by
  have hhead : path.toList.head?.any (· = '/') = false := by
    simp only [isContained, Bool.and_eq_true, Bool.not_eq_eq_eq_not, Bool.not_true] at h
    exact h.1
  simp only [open?, hhead, List.any_eq_true, decide_eq_true_eq, exists_eq_right, Bool.false_eq_true,
    if_false]

/-- A path that is handed to the operating system is followed from the root. -/
theorem Admits.open? (h : d.Admits path) :
    d.open? path = d.root.follow d.outward (components path) := by
  rw [open?_of_contained h.contained, if_neg h.noZero, if_neg (Nat.not_le.mpr h.short)]

/-- The error of a store for an error of the operating system. -/
def told (path : String) (e : OsError) : Error :=
  if e = .noEntry then .notFound path else .io e.text

/-- What a directory answers where the operating system opens a node. -/
theorem answers_of_open (hin : isContained path = true) (hopen : d.open? path = .ok m) :
    d.hasFile path = !m.isDirectory ∧ (∀ text, textOf m = .ok text → d.getFile path = .ok text) ∧
      ∀ e, textOf m = .error e → d.getFile path = .error (told path e) := by
  simp only [hasFile, getFile, hin, hopen, Except.bind, Bool.true_and, if_true, true_and]
  refine ⟨fun text htext ↦ by rw [htext], fun e he ↦ ?_⟩
  rw [he]
  cases e <;> rfl

/-- What a directory answers where the operating system refuses a path. -/
theorem answers_of_refused (hin : isContained path = true) (hopen : d.open? path = .error e) :
    d.hasFile path = false ∧ d.getFile path = .error (told path e) := by
  simp only [hasFile, getFile, hin, hopen, Except.bind, Bool.true_and, if_true, true_and]
  cases e <;> rfl

theorem textOf_file {bytes : List UInt8} {text : String} (h : text.toUTF8 = ⟨bytes.toArray⟩) :
    textOf (.file bytes) = .ok text := by
  have hvalid : (⟨bytes.toArray⟩ : ByteArray).IsValidUTF8 := h ▸ text.isValidUTF8
  have htext : String.fromUTF8 ⟨bytes.toArray⟩ hvalid = text :=
    String.toByteArray_inj.mp h.symm
  simp only [textOf, String.fromUTF8?, dif_pos hvalid, htext]

theorem textOf_undecodable {bytes : List UInt8}
    (h : ∀ text : String, text.toUTF8 ≠ ⟨bytes.toArray⟩) :
    textOf (.file bytes) = .error .notText := by
  have hvalid : ¬(⟨bytes.toArray⟩ : ByteArray).IsValidUTF8 :=
    fun hvalid ↦ h (String.fromUTF8 _ hvalid) rfl
  simp only [textOf, String.fromUTF8?, dif_neg hvalid]

/-- An obstacle is told as a failure to read, and only undecodable bytes belong to a file. -/
theorem Obstacle.answers (h : d.Obstacle path e) :
    d.getFile path = .error (.io e.text) ∧ (d.hasFile path = true ↔ e = .notText) := by
  cases h with
  | zeroByte hin hzero =>
      simp [answers_of_refused hin ((open?_of_contained hin).trans (if_pos hzero)), told]
  | long hin hzero hlong =>
      have hopen := (open?_of_contained hin).trans ((if_neg hzero).trans (if_pos hlong))
      simp [answers_of_refused hin hopen, told]
  | blocked hadmits hblocked he =>
      have hopen := hadmits.open?.trans (hblocked.follow d.outward)
      have hbytes : e ≠ .notText := by rcases hblocked.reason with rfl | rfl | rfl <;> simp
      simp [answers_of_refused hadmits.contained hopen, told, he, hbytes]
  | directory hadmits hleads =>
      have hopen := hadmits.open?.trans (hleads.follow d.outward)
      obtain ⟨hhas, -, hget⟩ := answers_of_open hadmits.contained hopen
      simp [hhas, hget .isDirectory rfl, told, Node.isDirectory]
  | undecodable hadmits hleads hbytes =>
      have hopen := hadmits.open?.trans (hleads.follow d.outward)
      obtain ⟨hhas, -, hget⟩ := answers_of_open hadmits.contained hopen
      simp [hhas, hget .notText (textOf_undecodable hbytes), told, Node.isDirectory]

/-- At a path without an obstacle a directory keeps the contract. -/
theorem contract_of_no_obstacle (h : ∀ e, ¬ d.Obstacle path e) :
    Contract d.hasFile d.getFile path := by
  cases hin : isContained path with
  | false => constructor <;> simp [hasFile, getFile, hin]
  | true =>
      have hadmits : d.Admits path :=
        ⟨hin, fun hzero ↦ h _ (.zeroByte hin hzero),
          Nat.not_le.mp fun hlong ↦ h _ (.long hin (fun hzero ↦ h _ (.zeroByte hin hzero)) hlong)⟩
      obtain ⟨m, hleads, hfollow⟩ | ⟨e, hblocked, hfollow⟩ :=
        d.root.follow_cases (components_of_contained hin) d.outward
      · cases m with
        | directory entries => exact (h _ (.directory hadmits hleads)).elim
        | file bytes =>
            obtain ⟨text, htext⟩ : ∃ text : String, text.toUTF8 = ⟨bytes.toArray⟩ :=
              Classical.byContradiction fun hno ↦
                h _ (.undecodable hadmits hleads (not_exists.mp hno))
            obtain ⟨hhas, hget, -⟩ := answers_of_open hin (hadmits.open?.trans hfollow)
            constructor <;> simp [hhas, hget text (textOf_file htext), Node.isDirectory]
      · have he : e = .noEntry :=
          Decidable.byContradiction fun hne ↦ h _ (.blocked hadmits hblocked hne)
        obtain ⟨hhas, hget⟩ := answers_of_refused hin (hadmits.open?.trans hfollow)
        constructor <;> simp [hhas, hget, he, told]

end Directory

/-- Files in memory keep the contract at every path, and a directory at exactly the paths without
an obstacle; an obstacle is told as a failure to read, and there the directory has a file exactly
if the obstacle is its bytes. -/
theorem stores_contract_iff (m : Memory) (d : Directory) (path : String) :
    Contract m.hasFile (fun p ↦ (m.read p).1) path ∧
      (Contract d.hasFile d.getFile path ↔ ∀ e, ¬ d.Obstacle path e) ∧
      ∀ e, d.Obstacle path e →
        d.getFile path = .error (.io e.text) ∧ (d.hasFile path = true ↔ e = .notText) := by
  refine ⟨m.contract path, ⟨fun h e he ↦ ?_, Directory.contract_of_no_obstacle⟩,
    fun e he ↦ he.answers⟩
  obtain ⟨hget, -⟩ := he.answers
  cases hhas : d.hasFile path with
  | true =>
      obtain ⟨text, htext⟩ := h.has_iff.mp hhas
      simp [htext] at hget
  | false => simp [h.absent hhas] at hget

/-- A directory with a file that is no text and a directory in it. -/
def oddDirectory : Directory where
  location := "/project"
  root := .directory [("bad.sol", .file [0xFF]), ("lib", .directory [("B.sol", .file [0x62])])]

/-- A file that is no text is there but cannot be read, and a directory is no file but is not
reported as absent. -/
theorem contract_fails_at_odd_entries :
    ¬ Contract oddDirectory.hasFile oddDirectory.getFile "bad.sol" ∧
      ¬ Contract oddDirectory.hasFile oddDirectory.getFile "lib" := by
  have hbad : oddDirectory.hasFile "bad.sol" = true ∧
      oddDirectory.getFile "bad.sol" = .error (.io OsError.notText.text) := ⟨by decide +kernel, rfl⟩
  have hlib : oddDirectory.hasFile "lib" = false ∧
      oddDirectory.getFile "lib" = .error (.io OsError.isDirectory.text) := ⟨by decide +kernel, rfl⟩
  constructor
  · intro h
    obtain ⟨text, htext⟩ := h.has_iff.mp hbad.1
    simp [htext] at hbad
  · intro h
    simp [h.absent hlib.1] at hlib

end CompilerDriver.Store
