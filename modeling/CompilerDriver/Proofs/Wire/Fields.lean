import CompilerDriver.Proofs.Json.RoundTrip
import CompilerDriver.Wire.Decode
import Mathlib.Tactic.SplitIfs

/-!
# Reading fields in any order

Commands and messages are read from any text of an object that holds their fields, the kind among
them: the members may stand in any order, with any white space and any spelling, and members under
other keys do not matter (`decodes_fields`). `Holds` says what such an object has under the keys of
the fields. The encoded form is one such text, so it is read back as it was.
-/

namespace CompilerDriver.Wire

open Json

/-- The values under a key, in the order of the text. -/
def valuesOf (key : String) (members : List (String × Json)) : List Json :=
  (members.filter fun m ↦ m.1 = key).map Prod.snd

/-- Members that hold the given fields, each once and with its value, in any order and among any
members under other keys. A field of `defaults` may be left out. -/
def Holds (fields defaults members : List (String × Json)) : Prop :=
  ∀ f ∈ fields, valuesOf f.1 members = [f.2] ∨ f ∈ defaults ∧ valuesOf f.1 members = []

section Values

variable {key name : String} {value : Json} {members fields defaults : List (String × Json)}

theorem valuesOf_cons_self (key : String) (value : Json) (members : List (String × Json)) :
    valuesOf key ((key, value) :: members) = value :: valuesOf key members := by
  simp [valuesOf]

theorem valuesOf_cons_ne (h : key ≠ name) (value : Json) (members : List (String × Json)) :
    valuesOf name ((key, value) :: members) = valuesOf name members := by
  simp [valuesOf, h]

/-- Fields under different keys hold themselves. -/
theorem holds_self (h : (fields.map Prod.fst).Nodup) (defaults : List (String × Json)) :
    Holds fields defaults fields := by
  intro f hf
  refine .inl ?_
  induction fields with
  | nil => cases hf
  | cons head rest ih =>
      obtain ⟨key, value⟩ := head
      rw [List.map_cons, List.nodup_cons] at h
      rcases List.mem_cons.mp hf with rfl | hf
      · have hnone : valuesOf key rest = [] := by
          rw [valuesOf, List.map_eq_nil_iff, List.filter_eq_nil_iff]
          intro m hm hkey
          exact h.1 (List.mem_map.mpr ⟨m, hm, of_decide_eq_true hkey⟩)
        rw [valuesOf_cons_self, hnone]
      · have hne : key ≠ f.1 := fun hkey ↦ h.1 (List.mem_map.mpr ⟨f, hf, hkey.symm⟩)
        rw [valuesOf_cons_ne hne, ih h.2 hf]

theorem field?_eq (name : String) (members : List (String × Json)) :
    field? name members = (valuesOf name members).head? := by
  rw [field?, valuesOf, List.head?_map, List.head?_filter]

/-- Fields are in order if each was not seen before, stands there at most once, and has a value that
is accepted. -/
theorem checkFields_ok {check : String → Option (Json → Except Fault Unit)} {seen : List String}
    (h : ∀ name accepts, check name = some accepts → valuesOf name members = [] ∨
      seen.contains name = false ∧ ∃ v, valuesOf name members = [v] ∧ accepts v = .ok ()) :
    checkFields check seen members = .ok () := by
  induction members generalizing seen with
  | nil => rfl
  | cons head rest ih =>
      obtain ⟨key, value⟩ := head
      rw [checkFields]
      cases hcheck : check key with
      | none =>
          refine ih fun name accepts hname ↦ ?_
          have hne : key ≠ name := by
            rintro rfl
            rw [hcheck] at hname
            cases hname
          have hfits := h name accepts hname
          rwa [valuesOf_cons_ne hne] at hfits
      | some accepts =>
          have hfits := h key accepts hcheck
          rw [valuesOf_cons_self] at hfits
          obtain ⟨hunseen, v, hvalues, haccepts⟩ := hfits.resolve_left (List.cons_ne_nil _ _)
          obtain ⟨rfl, hnone⟩ := List.cons.inj hvalues
          have hrest : checkFields check (key :: seen) rest = .ok () := by
            refine ih fun name accepts hname ↦ ?_
            by_cases hkey : key = name
            · exact .inl (hkey ▸ hnone)
            · have hothers := h name accepts hname
              rw [valuesOf_cons_ne hkey] at hothers
              refine hothers.imp_right fun ⟨hseen, hvalue⟩ ↦ ⟨?_, hvalue⟩
              simpa [Ne.symm hkey] using hseen
          simp only [hunseen, haccepts]
          exact hrest

end Values

section Tagged

variable {κ : Type} {kinds : Kinds κ} {k : κ} {kind : Option κ} {m : Member} {later : List Member}
  {rest : List Char} {fuel : Nat}

/-- The members that do not name the kind. -/
def withoutKind (members : List (String × Json)) : List (String × Json) :=
  members.filter fun m ↦ m.1 ≠ kindKey

/-- What the members that are left tell of the kind: nothing more once it is known, and else its
name, once. -/
def TellsKind (kinds : Kinds κ) (k : κ) : Option κ → List Json → Prop
  | some known, names => known = k ∧ names = []
  | none, names => ∃ name, names = [.string name] ∧ kinds.ofName? name = some k

theorem valuesOf_withoutKind {name : String} (h : name ≠ kindKey)
    (members : List (String × Json)) :
    valuesOf name (withoutKind members) = valuesOf name members := by
  rw [valuesOf, withoutKind, List.filter_filter]
  congr 1
  refine List.filter_congr fun m _ ↦ ?_
  by_cases hm : m.1 = name <;> simp [hm, h]

theorem withoutKind_cons_kind (value : Json) (members : List (String × Json)) :
    withoutKind ((kindKey, value) :: members) = withoutKind members := by
  simp [withoutKind]

theorem withoutKind_cons_ne {key : String} (h : key ≠ kindKey) (value : Json)
    (members : List (String × Json)) :
    withoutKind ((key, value) :: members) = (key, value) :: withoutKind members := by
  simp [withoutKind, h]

/-- The name of the kind is read, with the gap before it. -/
theorem readKind_text {depth : Nat} {name : String} {gap text : List Char} (hgap : Gap gap)
    (htext : ValueText depth (.string name) text) (hkind : kinds.ofName? name = some k)
    (rest : List Char) (place : Place) :
    ∃ place', readKind kinds ⟨gap ++ (text ++ rest), place⟩ = .ok (k, ⟨rest, place'⟩) := by
  cases htext with
  | @string _ _ text h =>
      obtain ⟨middle, hskip⟩ := skipGaps_gap_cons hgap (c := '"') rfl (text ++ '"' :: rest) place
      obtain ⟨place', hstring⟩ := readString_spelled h (middle.after '"') rest
      refine ⟨place', ?_⟩
      have hname : readText "variant identifier" ⟨gap ++ ('"' :: (text ++ ['"']) ++ rest), place⟩ =
          .ok (name, ⟨rest, place'⟩) := by
        simp only [readText, List.cons_append, List.append_assoc, List.nil_append, hskip]
        exact hstring
      rw [readKind, hname]
      simp only [bind, Except.bind, hkind]
      rfl

/-- A member that was found is read, and then the members after it. -/
theorem readTagged_member {first : Bool} {c : Cursor} (hspaced : m.Spaced)
    (htext : ValueText (depthLimit - 1) m.value.value m.value.text)
    (hfinds : FindsMember first c m (laterPieces (later.map Member.all) ++ '}' :: rest))
    (hfuel : m.value.text.length ≤ fuel)
    (htells : TellsKind kinds k kind (valuesOf kindKey ((m :: later).map Member.pair)))
    (hlater : ∀ kind place, TellsKind kinds k kind (valuesOf kindKey (later.map Member.pair)) →
      ∃ place', readTagged kinds kind false
        ⟨m.value.after ++ (laterPieces (later.map Member.all) ++ '}' :: rest), place⟩ fuel =
          .ok ((k, withoutKind (later.map Member.pair)), ⟨rest, place'⟩)) :
    ∃ place', readTagged kinds kind first c (fuel + 1) =
      .ok ((k, withoutKind ((m :: later).map Member.pair)), ⟨rest, place'⟩) := by
  obtain ⟨behind, colon, place, hnext, hkey, hcolon⟩ := hfinds.key
  rw [List.map_cons, Member.pair] at htells ⊢
  -- a member that names the kind is taken out, and no later one may name it again
  by_cases hname : m.key.value = kindKey
  · rw [hname, valuesOf_cons_self] at htells
    cases kind with
    | some known => cases htells.2
    | none =>
        obtain ⟨name, hvalues, hkind⟩ := htells
        obtain ⟨hvalue, hnone⟩ := List.cons.inj hvalues
        rw [hvalue] at htext
        obtain ⟨middle, hread⟩ := readKind_text hspaced.value.before htext hkind
          (m.value.after ++ (laterPieces (later.map Member.all) ++ '}' :: rest)) place
        obtain ⟨last, hmembers⟩ := hlater (some k) middle ⟨rfl, hnone⟩
        refine ⟨last, ?_⟩
        rw [readTagged, hnext, hname, withoutKind_cons_kind, ← hmembers]
        simp only [bind, Except.bind, hkey, hname, ↓reduceIte, Option.isSome_none,
          Bool.false_eq_true, hcolon, hread]
  · rw [valuesOf_cons_ne hname] at htells
    obtain ⟨middle, hvalue⟩ := readValue_member hspaced htext htext.reads
      (ends_laterPieces (.inr (.inr rfl)) (later.map Member.all) rest) hfuel place
    obtain ⟨last, hmembers⟩ := hlater kind middle htells
    refine ⟨last, ?_⟩
    rw [readTagged, hnext, withoutKind_cons_ne hname]
    simp only [bind, Except.bind, hkey, hname, ↓reduceIte, hcolon, hvalue, hmembers]
    rfl

/-- The members after the first are read up to the brace. -/
theorem readTagged_later (hspaced : ∀ m ∈ later, m.Spaced)
    (htext : ∀ m ∈ later, ValueText (depthLimit - 1) m.value.value m.value.text)
    {gap : List Char} (hgap : Gap gap)
    (hfuel : (laterPieces (later.map Member.all)).length < fuel)
    (htells : TellsKind kinds k kind (valuesOf kindKey (later.map Member.pair))) (place : Place) :
    ∃ place', readTagged kinds kind false
      ⟨gap ++ (laterPieces (later.map Member.all) ++ '}' :: rest), place⟩ fuel =
        .ok ((k, withoutKind (later.map Member.pair)), ⟨rest, place'⟩) := by
  obtain ⟨fuel, rfl⟩ : ∃ f, fuel = f + 1 := ⟨fuel - 1, by omega⟩
  -- over the members, for any kind known so far: the first of them may be the one that tells it
  induction later generalizing kind gap place fuel with
  | nil =>
      obtain ⟨place', hnext⟩ := nextKey_close hgap false rest place
      refine ⟨place'.after '}', ?_⟩
      rw [readTagged]
      simp only [laterPieces, List.map_nil, List.flatMap_nil, List.nil_append, hnext]
      cases kind with
      | none =>
          obtain ⟨name, hvalues, -⟩ := htells
          cases hvalues
      | some known =>
          obtain ⟨rfl, -⟩ := htells
          rfl
  | cons m later ih =>
      have hsplit : laterPieces ((m :: later).map Member.all) =
          ',' :: (m.all ++ laterPieces (later.map Member.all)) := rfl
      rw [hsplit] at hfuel ⊢
      simp only [List.length_cons, List.length_append] at hfuel
      have hlength := m.length_lt
      obtain ⟨fuel, rfl⟩ : ∃ f, fuel = f + 1 := ⟨fuel - 1, by omega⟩
      have hm := hspaced m List.mem_cons_self
      have hfinds := findsMember_comma hm hgap
        (laterPieces (later.map Member.all) ++ '}' :: rest) place
      simp only [List.cons_append, List.append_assoc]
      refine readTagged_member hm (htext m List.mem_cons_self) hfinds (by omega) htells
        fun kind middle htells ↦ ?_
      exact ih (fun p hp ↦ hspaced p (List.mem_cons_of_mem _ hp))
        (fun p hp ↦ htext p (List.mem_cons_of_mem _ hp)) hm.value.after htells middle fuel
        (by omega)

/-- The members of a tagged object are read up to the brace. -/
theorem readTagged_listed {members : List Member} (hspaced : ∀ m ∈ members, m.Spaced)
    (htext : ∀ m ∈ members, ValueText (depthLimit - 1) m.value.value m.value.text)
    (hfuel : (listed (members.map Member.all)).length < fuel)
    (htells : TellsKind kinds k none (valuesOf kindKey (members.map Member.pair)))
    (rest : List Char) (place : Place) :
    ∃ place', readTagged kinds none true
      ⟨listed (members.map Member.all) ++ '}' :: rest, place⟩ fuel =
        .ok ((k, withoutKind (members.map Member.pair)), ⟨rest, place'⟩) := by
  obtain ⟨fuel, rfl⟩ : ∃ f, fuel = f + 1 := ⟨fuel - 1, by omega⟩
  cases members with
  | nil =>
      obtain ⟨name, hvalues, -⟩ := htells
      cases hvalues
  | cons m later =>
      have hm := hspaced m List.mem_cons_self
      have hlength := m.length_lt
      rw [List.map_cons, listed_cons, List.length_append] at hfuel
      rw [List.map_cons, listed_cons, List.append_assoc]
      have hfinds := findsMember_first hm (laterPieces (later.map Member.all) ++ '}' :: rest) place
      refine readTagged_member hm (htext m List.mem_cons_self) hfinds (by omega) htells
        fun kind middle htells ↦ ?_
      exact readTagged_later (fun p hp ↦ hspaced p (List.mem_cons_of_mem _ hp))
        (fun p hp ↦ htext p (List.mem_cons_of_mem _ hp)) hm.value.after (by omega) htells middle

/-- An object whose members name the kind once is read as that kind with the other members. -/
theorem readBody_object {members : List (String × Json)} {text : String}
    (htext : ObjectText members text)
    (htells : TellsKind kinds k none (valuesOf kindKey members)) (type : String) :
    ∃ c, readBody kinds type (Cursor.start text) =
      .ok ((k, .members (withoutKind members)), c) ∧ readEnd c = .ok () := by
  cases htext with
  | @intro members before after hbefore hafter hspaced h =>
      have hstart : Cursor.start (String.ofList (before ++ '{' ::
          (listed (members.map Member.all) ++ '}' :: after))) =
            ⟨before ++ '{' :: (listed (members.map Member.all) ++ '}' :: after), ⟨1, 0⟩⟩ := by
        rw [Cursor.start, String.toList_ofList]
      obtain ⟨place, hskip⟩ := skipGaps_gap_cons hbefore (c := '{') rfl
        (listed (members.map Member.all) ++ '}' :: after) ⟨1, 0⟩
      have hfuel : (listed (members.map Member.all)).length <
          Cursor.fuel ⟨'{' :: (listed (members.map Member.all) ++ '}' :: after), place⟩ := by
        simp only [Cursor.fuel, List.length_cons, List.length_append]
        omega
      obtain ⟨last, hread⟩ :=
        readTagged_listed hspaced h hfuel htells after (place.after '{')
      refine ⟨⟨after, last⟩, ?_, ?_⟩
      · rw [hstart, readBody]
        simp only [hskip]
        show readTagged kinds none true ⟨listed (members.map Member.all) ++ '}' :: after,
          place.after '{'⟩ _ >>= _ = _
        rw [hread]
        rfl
      · obtain ⟨end', hend⟩ := skipGaps_gap hafter [] last
        rw [List.append_nil] at hend
        rw [readEnd, hend]
        rfl

end Tagged

section Fields

variable {fields defaults members : List (String × Json)} {name : String} {value : Json}

/-- A field without a default stands there once, also without the kind. -/
theorem Holds.once (h : Holds fields defaults members) (hfield : (name, value) ∈ fields)
    (hdefault : name ∉ defaults.map Prod.fst) (hkind : name ≠ kindKey) :
    valuesOf name (withoutKind members) = [value] := by
  rw [valuesOf_withoutKind hkind]
  exact (h _ hfield).resolve_right fun hleft ↦ hdefault (List.mem_map.mpr ⟨_, hleft.1, rfl⟩)

/-- The kind of members that hold it is told once. -/
theorem Holds.tellsKind {κ : Type} {kinds : Kinds κ} {k : κ} (h : Holds fields defaults members)
    (hfield : (kindKey, .string name) ∈ fields) (hdefault : kindKey ∉ defaults.map Prod.fst)
    (hname : kinds.ofName? name = some k) :
    TellsKind kinds k none (valuesOf kindKey members) :=
  ⟨name, (h _ hfield).resolve_right fun hleft ↦ hdefault (List.mem_map.mpr ⟨_, hleft.1, rfl⟩),
    hname⟩

/-- The members that hold fields pass a check that accepts each of the fields. -/
theorem Holds.checkFields {check : String → Option (Json → Except Fault Unit)}
    (h : Holds fields defaults members)
    (hcheck : ∀ name accepts, check name = some accepts →
      name ≠ kindKey ∧ ∃ v, (name, v) ∈ fields ∧ accepts v = .ok ()) :
    checkFields check [] (withoutKind members) = .ok () := by
  refine checkFields_ok fun name accepts hname ↦ ?_
  obtain ⟨hkind, v, hfield, haccepts⟩ := hcheck name accepts hname
  rw [valuesOf_withoutKind hkind]
  rcases h _ hfield with hvalue | ⟨-, hnone⟩
  · exact .inr ⟨rfl, v, hvalue, haccepts⟩
  · exact .inl hnone

/-- A field without a default is read. -/
theorem Holds.required {α : Type} {read : Json → Except Fault α} {a : α}
    (h : Holds fields defaults members) (hfield : (name, value) ∈ fields)
    (hdefault : name ∉ defaults.map Prod.fst) (hkind : name ≠ kindKey)
    (hread : read value = .ok a) : required read name (withoutKind members) = .ok a := by
  rw [Wire.required, field?_eq, h.once hfield hdefault hkind]
  exact hread

/-- A field with a default is read, or its default taken. -/
theorem Holds.optional {α : Type} {read : Json → Except Fault α} {default a : α}
    (h : Holds fields defaults members) (hfield : (name, value) ∈ fields) (hkind : name ≠ kindKey)
    (hread : read value = .ok a) (hdefault : (name, value) ∈ defaults → default = a) :
    optional read default name (withoutKind members) = .ok a := by
  rw [Wire.optional, field?_eq, valuesOf_withoutKind hkind]
  rcases h _ hfield with hvalue | ⟨hleft, hnone⟩
  · rw [hvalue]
    exact hread
  · rw [hnone]
    exact congrArg Except.ok (hdefault hleft)

theorem asNat_ofNat {n limit : Nat} (h : n ≤ limit) (wanted : String) :
    asNat limit wanted (.ofNat n) = .ok n := by
  have hrange : (0 : Int) ≤ n ∧ (n : Int) ≤ limit := by omega
  show (if (0 : Int) ≤ n ∧ (n : Int) ≤ limit then _ else _) = _
  rw [if_pos hrange, Int.toNat_natCast]

theorem asJob_ofNat (job : UInt64) : asJob (.ofNat job.toNat) = .ok job := by
  have hlimit : job.toNat ≤ UInt64.size - 1 := Nat.le_pred_of_lt job.toNat_lt_size
  rw [asJob, asNat_ofNat hlimit]
  exact congrArg Except.ok UInt64.ofNat_toNat

theorem asFlag_ofNat (flag : UInt8) : asFlag (.ofNat flag.toNat) = .ok flag := by
  have hlimit : flag.toNat ≤ 255 := Nat.le_pred_of_lt flag.toNat_lt_size
  rw [asFlag, asNat_ofNat hlimit]
  exact congrArg Except.ok UInt8.ofNat_toNat

theorem asTexts_ofStrings (texts : List String) : asTexts (.ofStrings texts) = .ok texts := by
  show (texts.map Json.string).mapM asText = .ok texts
  induction texts with
  | nil => rfl
  | cons text rest ih =>
      rw [List.map_cons, List.mapM_cons, ih]
      rfl

/-- A number of 64 bits is kept by a text. -/
theorem exact_ofNat {n : Nat} (h : n < UInt64.size) (depth : Nat) : Exact depth (.ofNat n) :=
  .integer (by omega) (by exact_mod_cast h)

theorem exact_ofStrings (texts : List String) (depth : Nat) :
    Exact (depth + 1) (.ofStrings texts) := by
  refine .array fun v hv ↦ ?_
  obtain ⟨text, -, rfl⟩ := List.mem_map.mp hv
  exact .string text

/-- A reader that reads the value of a field accepts it. -/
theorem checkBy_accepts {α : Type} {read : Json → Except Fault α} {a : α}
    {accepts : Json → Except Fault Unit} (h : checkBy read = some accepts)
    (hfield : (name, value) ∈ fields) (hkind : name ≠ kindKey) (hread : read value = .ok a) :
    name ≠ kindKey ∧ ∃ v, (name, v) ∈ fields ∧ accepts v = .ok () := by
  cases h
  exact ⟨hkind, value, hfield, congrArg (Except.map fun _ ↦ ()) hread⟩

end Fields

namespace Command

/-- The kind of a command. -/
def kind : Command → Kind
  | .loadVersion _ => .loadVersion
  | .compile _ _ _ => .compile

theorem tag_mem (c : Command) : (kindKey, .string (kinds.name c.kind)) ∈ c.members := by
  cases c <;> exact List.mem_cons_self

theorem ofName?_name (k : Kind) : kinds.ofName? (kinds.name k) = some k := by
  cases k <;> decide

/-- Every field that is checked is a field of the command and passes. -/
theorem fieldCheck_members (c : Command) (name : String) (accepts : Json → Except Fault Unit)
    (h : fieldCheck c.kind name = some accepts) :
    name ≠ kindKey ∧ ∃ v, (name, v) ∈ c.members ∧ accepts v = .ok () := by
  cases c with
  | loadVersion url =>
      have hdata : ("data", .string url) ∈ (loadVersion url).members := by simp [members]
      simp only [kind, fieldCheck] at h
      split_ifs at h with hname
      subst hname
      exact checkBy_accepts h hdata (by decide) rfl
  | compile job source optimize =>
      have hsource : ("source", .string source) ∈ (compile job source optimize).members := by
        simp [members]
      simp only [kind, fieldCheck] at h
      split_ifs at h with hname hname hname
      · subst hname
        exact checkBy_accepts h (by simp [members]) (by decide) (asJob_ofNat job)
      · subst hname
        exact checkBy_accepts h hsource (by decide) rfl
      · subst hname
        exact checkBy_accepts h (by simp [members]) (by decide) (asFlag_ofNat optimize)

/-- A command is read from members that hold its fields. -/
theorem ofMembers_holds (c : Command) {found : List (String × Json)}
    (h : Holds c.members [] found) : ofMembers c.kind (withoutKind found) = .ok c := by
  have hcheck := h.checkFields c.fieldCheck_members
  cases c with
  | loadVersion url =>
      have hfield : ("data", .string url) ∈ (loadVersion url).members := by simp [members]
      have hurl : required asText "data" (withoutKind found) = .ok url :=
        h.required hfield List.not_mem_nil (by decide) rfl
      simp only [kind] at hcheck ⊢
      simp only [ofMembers, hcheck, hurl, bind, Except.bind]
      rfl
  | compile job source optimize =>
      have hfield : ("source", .string source) ∈ (compile job source optimize).members := by
        simp [members]
      have hjob : required asJob "job" (withoutKind found) = .ok job :=
        h.required (by simp [members]) List.not_mem_nil (by decide) (asJob_ofNat job)
      have hsource : required asText "source" (withoutKind found) = .ok source :=
        h.required hfield List.not_mem_nil (by decide) rfl
      have hoptimize : required asFlag "optimize" (withoutKind found) = .ok optimize :=
        h.required (by simp [members]) List.not_mem_nil (by decide) (asFlag_ofNat optimize)
      simp only [kind] at hcheck ⊢
      simp only [ofMembers, hcheck, hjob, hsource, hoptimize, bind, Except.bind]
      rfl

/-- A command is read from every text of an object that holds its fields. -/
theorem ofText_holds (c : Command) {found : List (String × Json)} {text : String}
    (htext : ObjectText found text) (h : Holds c.members [] found) : ofText text = .ok c := by
  have htells := h.tellsKind c.tag_mem List.not_mem_nil (ofName?_name c.kind)
  obtain ⟨cursor, hbody, hend⟩ := readBody_object htext htells typeName
  rw [ofText, hbody]
  show ofMembers c.kind (withoutKind found) >>= _ = _
  rw [c.ofMembers_holds h]
  show readEnd cursor >>= _ = _
  rw [hend]
  rfl

theorem exact_members (c : Command) : ∀ m ∈ c.members, Exact (depthLimit - 1) m.2 := by
  cases c with
  | loadVersion url =>
      simp only [members, List.forall_mem_cons]
      exact ⟨.string _, .string url, nofun⟩
  | compile job source optimize =>
      have hoptimize : optimize.toNat < UInt64.size :=
        Nat.lt_trans optimize.toNat_lt_size (by decide)
      simp only [members, List.forall_mem_cons]
      exact ⟨.string _, exact_ofNat job.toNat_lt_size _, .string source,
        exact_ofNat hoptimize _, nofun⟩

/-- A command is read back from its encoded form. -/
theorem ofText_encode (c : Command) : ofText c.encode = .ok c := by
  have hkeys : (c.members.map Prod.fst).Nodup := by cases c <;> simp [members]
  exact c.ofText_holds (objectText_compact c.exact_members) (holds_self hkeys [])

end Command

namespace Message

/-- The kind of a message. -/
def kind : Message → Kind
  | .versionLoaded _ _ => .versionLoaded
  | .compiled _ _ _ => .compiled
  | .error _ => .error

/-- The values that fields have when they are left out. -/
def defaults : List (String × Json) :=
  [("acceptsMultipleFiles", .bool false), ("missingInputs", .ofStrings [])]

theorem tag_mem (m : Message) : (kindKey, .string (kinds.name m.kind)) ∈ m.members := by
  cases m <;> exact List.mem_cons_self

theorem ofName?_name (k : Kind) : kinds.ofName? (kinds.name k) = some k := by
  cases k <;> decide

/-- The text of a message, whatever its kind, is its field `data`. -/
def data : Message → String
  | .versionLoaded version _ => version
  | .compiled _ payload _ => payload
  | .error text => text

theorem data_mem (m : Message) : ("data", .string m.data) ∈ m.members := by
  cases m <;> simp [members, data]

/-- Every field that is checked is a field of the message and passes. -/
theorem fieldCheck_members (m : Message) (name : String) (accepts : Json → Except Fault Unit)
    (h : fieldCheck m.kind name = some accepts) :
    name ≠ kindKey ∧ ∃ v, (name, v) ∈ m.members ∧ accepts v = .ok () := by
  rw [fieldCheck.eq_def] at h
  by_cases hname : name = "data"
  · rw [if_pos hname] at h
    subst hname
    exact checkBy_accepts h m.data_mem (by decide) rfl
  · rw [if_neg hname] at h
    cases m with
    | versionLoaded version multiple =>
        have hmultiple : ("acceptsMultipleFiles", .bool multiple) ∈
            (versionLoaded version multiple).members := by simp [members]
        simp only [kind] at h
        split_ifs at h with hname
        subst hname
        exact checkBy_accepts h hmultiple (by decide) rfl
    | compiled job payload missing =>
        simp only [kind] at h
        split_ifs at h with hname hname
        · subst hname
          exact checkBy_accepts h (by simp [members]) (by decide) (asJob_ofNat job)
        · subst hname
          exact checkBy_accepts h (by simp [members]) (by decide) (asTexts_ofStrings missing)
    | error text => cases h

/-- A message is read from members that hold its fields. -/
theorem ofMembers_holds (m : Message) {found : List (String × Json)}
    (h : Holds m.members defaults found) : ofMembers m.kind (withoutKind found) = .ok m := by
  have hcheck := h.checkFields m.fieldCheck_members
  have hdata : required asText "data" (withoutKind found) = .ok m.data :=
    h.required m.data_mem (by decide) (by decide) rfl
  cases m with
  | versionLoaded version multiple =>
      have hfield : ("acceptsMultipleFiles", .bool multiple) ∈
          (versionLoaded version multiple).members := by simp [members]
      have hmultiple : optional asBool false "acceptsMultipleFiles" (withoutKind found) =
          .ok multiple := h.optional hfield (by decide) rfl fun hdefault ↦ by
            simpa [defaults, eq_comm] using hdefault
      simp only [kind] at hcheck ⊢
      simp only [ofMembers, hcheck, hdata, hmultiple, bind, Except.bind]
      rfl
  | compiled job payload missing =>
      have hjob : required asJob "job" (withoutKind found) = .ok job :=
        h.required (by simp [members]) (by decide) (by decide) (asJob_ofNat job)
      have hfield : ("missingInputs", .ofStrings missing) ∈
          (compiled job payload missing).members := by simp [members]
      have hmissing : optional asTexts [] "missingInputs" (withoutKind found) = .ok missing :=
        h.optional hfield (by decide) (asTexts_ofStrings missing) fun hdefault ↦ by
          simpa [defaults, Json.ofStrings, eq_comm] using hdefault
      simp only [kind] at hcheck ⊢
      simp only [ofMembers, hcheck, hjob, hdata, hmissing, bind, Except.bind]
      rfl
  | error text =>
      simp only [kind] at hcheck ⊢
      simp only [ofMembers, hcheck, hdata, bind, Except.bind]
      rfl

/-- A message is read from every text of an object that holds its fields. -/
theorem ofText_holds (m : Message) {found : List (String × Json)} {text : String}
    (htext : ObjectText found text) (h : Holds m.members defaults found) :
    ofText text = .ok m := by
  have htells := h.tellsKind m.tag_mem (by decide) (ofName?_name m.kind)
  obtain ⟨cursor, hbody, hend⟩ := readBody_object htext htells typeName
  rw [ofText, hbody]
  show ofMembers m.kind (withoutKind found) >>= _ = _
  rw [m.ofMembers_holds h]
  show readEnd cursor >>= _ = _
  rw [hend]
  rfl

theorem exact_members (m : Message) : ∀ f ∈ m.members, Exact (depthLimit - 1) f.2 := by
  cases m with
  | versionLoaded version multiple =>
      simp only [members, List.forall_mem_cons]
      exact ⟨.string _, .string version, .bool multiple, nofun⟩
  | compiled job payload missing =>
      simp only [members, List.forall_mem_cons]
      exact ⟨.string _, exact_ofNat job.toNat_lt_size _, .string payload,
        exact_ofStrings missing _, nofun⟩
  | error text =>
      simp only [members, List.forall_mem_cons]
      exact ⟨.string _, .string text, nofun⟩

/-- A message is read back from its encoded form. -/
theorem ofText_encode (m : Message) : ofText m.encode = .ok m := by
  have hkeys : (m.members.map Prod.fst).Nodup := by cases m <;> simp [members]
  exact m.ofText_holds (objectText_compact m.exact_members) (holds_self hkeys defaults)

end Message

/-- A message or command is read from every text of an object that holds its fields, and so from
its encoded form. -/
theorem decodes_fields :
    (∀ (m : Message) (members : List (String × Json)) (text : String), ObjectText members text →
      Holds m.members Message.defaults members → Message.ofText text = .ok m) ∧
    (∀ (c : Command) (members : List (String × Json)) (text : String), ObjectText members text →
      Holds c.members [] members → Command.ofText text = .ok c) ∧
    (∀ m : Message, Message.ofText m.encode = .ok m) ∧
    ∀ c : Command, Command.ofText c.encode = .ok c :=
  ⟨fun m _ _ htext h ↦ m.ofText_holds htext h, fun c _ _ htext h ↦ c.ofText_holds htext h,
    Message.ofText_encode, Command.ofText_encode⟩

/-- A version whose last point is spelled in hexadecimal digits, behind a member that is no field,
without `acceptsMultipleFiles`, and with the kind at the end. -/
def looseVersion : List Member :=
  [.written ("note", .array [.null]),
    ⟨⟨"data", ['\n', ' '], quote "data", [' ']⟩,
      ⟨.string "0.4.11", [' '], '"' :: ("0.4\\u002E11".toList ++ ['"']), ['\t']⟩⟩,
    .written ("cmd", .string "versionLoaded")]

/-- The text of an object of these members. -/
def looseText : String :=
  "\x7b\"note\":[null],\n \"data\" : \"0.4\\u002E11\"\t,\"cmd\":\"versionLoaded\"\x7d"

theorem spelled_point : Spelled "0.4\\u002E11".toList "0.4.11".toList := by
  have htext : "0.4\\u002E11".toList =
      ['0', '.', '4', '\\', 'u', '0', '0', '2', 'E', '1', '1'] := by decide +kernel
  have hchars : "0.4.11".toList = ['0', '.', '4', '.', '1', '1'] := by decide +kernel
  have hpoint : HexGroup '.'.toNat ['0', '0', '2', 'E'] :=
    HexGroup.intro (i := 0) (j := 0) (k := 2) (l := 14) rfl rfl rfl rfl
  rw [htext, hchars]
  iterate 3 refine .plain (by decide) (by decide) (by decide) ?_
  refine .unit hpoint ?_
  iterate 2 refine .plain (by decide) (by decide) (by decide) ?_
  exact .nil

theorem objectText_loose : ObjectText (looseVersion.map Member.pair) looseText := by
  have hletters : looseText =
      String.ofList ([] ++ '\x7b' :: (listed (looseVersion.map Member.all) ++ ['\x7d'])) := by
    decide +kernel
  have hgap : Gap ['\n', ' '] ∧ Gap [' '] ∧ Gap ['\t'] := by simp [Gap]
  have hspaced : ∀ m ∈ looseVersion, m.Spaced := by
    simp only [looseVersion, List.forall_mem_cons]
    exact ⟨Member.spaced_written _,
      ⟨⟨hgap.1, hgap.2.1⟩, ⟨hgap.2.1, hgap.2.2⟩, _, rfl, spelled_flatMap_escape _⟩,
      Member.spaced_written _, nofun⟩
  have hnote : Exact (depthLimit - 1) (.array [.null]) :=
    .array fun v hv ↦ List.mem_singleton.mp hv ▸ .null
  have hvalues : ∀ m ∈ looseVersion, ValueText (depthLimit - 1) m.value.value m.value.text := by
    simp only [looseVersion, List.forall_mem_cons]
    exact ⟨hnote.valueText, .string spelled_point, (Exact.string _).valueText, nofun⟩
  rw [hletters]
  exact .intro gap_nil gap_nil hspaced hvalues

/-- The loose text of a version is read as the version. -/
theorem reads_looseText :
    ObjectText (looseVersion.map Member.pair) looseText ∧
      Holds (Message.versionLoaded "0.4.11" false).members Message.defaults
        (looseVersion.map Member.pair) ∧
      Message.ofText looseText = .ok (.versionLoaded "0.4.11" false) := by
  have hholds : Holds (Message.versionLoaded "0.4.11" false).members Message.defaults
      (looseVersion.map Member.pair) := by
    simp only [Holds, Message.members, List.forall_mem_cons]
    exact ⟨.inl rfl, .inl rfl, .inr ⟨List.mem_cons_self, rfl⟩, nofun⟩
  exact ⟨objectText_loose, hholds, decodes_fields.1 _ _ _ objectText_loose hholds⟩

end CompilerDriver.Wire
