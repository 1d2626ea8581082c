import CompilerDriver.Store.Directory

/-!
# Where paths lead in a tree of directories

The components of a path as a walk, said by relations in place of the walk that the store makes.
`Node.Steps` is one component: an empty one and `.` stay in a directory, any other name but `..`
enters it. `Node.Refuses` says why a component cannot be taken. The main result is
`follow_cases`: a walk without `..` arrives where its components lead, or fails for the reason the
first refused component gives.
-/

namespace CompilerDriver.Store

namespace Node

/-- What one component of a path does, `..` aside. -/
inductive Steps : Node → String → Node → Prop
  | stay {entries : List (String × Node)} {name : String} (hidle : name = "" ∨ name = ".") :
      Steps (.directory entries) name (.directory entries)
  | enter {entries : List (String × Node)} {name : String} {inner : Node}
      (hidle : ¬(name = "" ∨ name = ".")) (hup : name ≠ "..")
      (hsize : name.utf8ByteSize ≤ nameLimit)
      (hfind : Entries.find? name entries = some inner) : Steps (.directory entries) name inner

/-- Why one component of a path cannot be taken. -/
inductive Refuses : Node → String → OsError → Prop
  | file {bytes : List UInt8} {name : String} : Refuses (.file bytes) name .notDirectory
  | long {entries : List (String × Node)} {name : String} (hidle : ¬(name = "" ∨ name = "."))
      (hup : name ≠ "..") (hsize : nameLimit < name.utf8ByteSize) :
      Refuses (.directory entries) name .nameTooLong
  | missing {entries : List (String × Node)} {name : String} (hidle : ¬(name = "" ∨ name = "."))
      (hup : name ≠ "..") (hsize : name.utf8ByteSize ≤ nameLimit)
      (hfind : Entries.find? name entries = none) : Refuses (.directory entries) name .noEntry

/-- Components lead from one node to another. -/
inductive Leads : Node → List String → Node → Prop
  | here {n : Node} : Leads n [] n
  | step {n inner m : Node} {name : String} {rest : List String} (hstep : n.Steps name inner)
      (hrest : Leads inner rest m) : Leads n (name :: rest) m

/-- One of the components is refused, and those before it are taken. -/
inductive Blocked : Node → List String → OsError → Prop
  | here {n : Node} {name : String} {rest : List String} {e : OsError}
      (href : n.Refuses name e) : Blocked n (name :: rest) e
  | step {n inner : Node} {name : String} {rest : List String} {e : OsError}
      (hstep : n.Steps name inner) (hrest : Blocked inner rest e) : Blocked n (name :: rest) e

variable {n m : Node} {name : String} {names : List String} {e : OsError}

/-- Every component but `..` is taken or refused. -/
theorem steps_or_refuses (n : Node) (hup : name ≠ "..") :
    (∃ m, n.Steps name m) ∨ ∃ e, n.Refuses name e := by
  cases n with
  | file bytes => exact .inr ⟨_, .file⟩
  | directory entries =>
      by_cases hidle : name = "" ∨ name = "."
      · exact .inl ⟨_, .stay hidle⟩
      rcases Nat.lt_or_ge nameLimit name.utf8ByteSize with hsize | hsize
      · exact .inr ⟨_, .long hidle hup hsize⟩
      cases hfind : Entries.find? name entries with
      | some inner => exact .inl ⟨inner, .enter hidle hup hsize hfind⟩
      | none => exact .inr ⟨_, .missing hidle hup hsize hfind⟩

/-- A component that is taken is the first step of the walk. -/
theorem Steps.follow (h : n.Steps name m) (outward : List Node) (rest : List String) :
    ∃ around, n.follow outward (name :: rest) = m.follow around rest := by
  cases h with
  | stay hidle =>
      exact ⟨outward, by simp only [Node.follow, if_pos hidle, isDirectory, if_true]⟩
  | @enter entries _ _ hidle hup hsize hfind =>
      exact ⟨.directory entries :: outward, by simp only [Node.follow, if_neg hidle,
        if_neg hup, entry?, if_neg (Nat.not_lt.mpr hsize), hfind]⟩

/-- A component that is refused ends the walk. -/
theorem Refuses.follow (h : n.Refuses name e) (outward : List Node) (rest : List String) :
    n.follow outward (name :: rest) = .error e := by
  cases h with
  | file => simp [Node.follow, isDirectory, entry?]
  | long hidle hup hsize =>
      simp only [Node.follow, if_neg hidle, if_neg hup, entry?, if_pos hsize]
  | missing hidle hup hsize hfind =>
      simp only [Node.follow, if_neg hidle, if_neg hup, entry?,
        if_neg (Nat.not_lt.mpr hsize), hfind]

/-- A walk arrives where its components lead. -/
theorem Leads.follow (h : n.Leads names m) (outward : List Node) :
    n.follow outward names = .ok m := by
  induction h generalizing outward with
  | here => rfl
  | step hstep _ ih =>
      obtain ⟨around, hfollow⟩ := hstep.follow outward _
      exact hfollow.trans (ih around)

/-- A walk fails for the reason its first refused component gives. -/
theorem Blocked.follow (h : n.Blocked names e) (outward : List Node) :
    n.follow outward names = .error e := by
  induction h generalizing outward with
  | here href => exact href.follow outward _
  | step hstep _ ih =>
      obtain ⟨around, hfollow⟩ := hstep.follow outward _
      exact hfollow.trans (ih around)

/-- The reasons for which a component is refused. -/
theorem Blocked.reason (h : n.Blocked names e) :
    e = .notDirectory ∨ e = .nameTooLong ∨ e = .noEntry := by
  induction h with
  | here href => cases href <;> simp
  | step _ _ ih => exact ih

/-- Components without `..` lead somewhere, or one of them is refused. -/
theorem leads_or_blocked (n : Node) (hup : ".." ∉ names) :
    (∃ m, n.Leads names m) ∨ ∃ e, n.Blocked names e := by
  induction names generalizing n with
  | nil => exact .inl ⟨n, .here⟩
  | cons name rest ih =>
      obtain ⟨hname, hrest⟩ : name ≠ ".." ∧ ".." ∉ rest := by
        simpa [eq_comm] using hup
      obtain ⟨inner, hstep⟩ | ⟨e, href⟩ := n.steps_or_refuses hname
      · exact (ih inner hrest).imp (fun ⟨m, h⟩ ↦ ⟨m, .step hstep h⟩) fun ⟨e, h⟩ ↦ ⟨e, .step hstep h⟩
      · exact .inr ⟨e, .here href⟩

/-- What a walk without `..` comes to, whatever lies around its start. -/
theorem follow_cases (n : Node) (hup : ".." ∉ names) (outward : List Node) :
    (∃ m, n.Leads names m ∧ n.follow outward names = .ok m) ∨
      ∃ e, n.Blocked names e ∧ n.follow outward names = .error e :=
  (n.leads_or_blocked hup).imp (fun ⟨m, h⟩ ↦ ⟨m, h, h.follow outward⟩)
    fun ⟨e, h⟩ ↦ ⟨e, h, h.follow outward⟩

end Node

end CompilerDriver.Store
