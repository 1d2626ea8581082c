import CompilerDriver.Github.Config
import CompilerDriver.Proofs.Url.Segments

/-!
# Text behind a URL

A URL's text begins with a front that settles scheme and authority whatever follows
(`parseClean?_front`). A URL without query and fragment can therefore be extended by a slash and
more text: it stays a URL, and the segments of the new text lead on from the directory at which the
old path stands (`parse?_extend`).
-/

namespace CompilerDriver.Url

open Github (trimSlashes)
open Text (cutAt cutAt_fst cutAt_run cutAt_snd_eq_none getLast_pieces_ne_nil mem_of_head? of_cutAt
  of_mem_pieces pieces pieces_append pieces_ne_nil rdropWhile_run run_of_dropWhile span_run)

variable {cs rest scheme authority : List Char} {url : Url} {c : Char}

/-- Whether an authority ends at a character. -/
def endsAuthority (c : Char) : Bool := isSlash c || c = '?' || c = '#'

/-- The web URL that a text denotes from which nothing is dropped. -/
def parseClean? (cs : List Char) : Option Url := do
  let (scheme, cs) ← cutScheme? cs
  let usual ← usualService? scheme
  let cs := cs.dropWhile isSlash
  let authority ← authority? usual (cs.takeWhile fun c ↦ !endsAuthority c)
  return withTail scheme authority (cs.dropWhile fun c ↦ !endsAuthority c)

theorem parse?_eq_parseClean? (text : String) : parse? text = parseClean? (clean text.toList) := rfl

/-- A URL is put together from its scheme, its authority and what follows. -/
theorem parse?_of_parts {text : String} {raw tail : List Char} {usual : Nat}
    (hscheme : cutScheme? (clean text.toList) = some (scheme, rest))
    (husual : usualService? scheme = some usual)
    (hraw : ((rest.dropWhile isSlash).takeWhile fun c ↦ !endsAuthority c) = raw)
    (hauthority : authority? usual raw = some authority)
    (htail : ((rest.dropWhile isSlash).dropWhile fun c ↦ !endsAuthority c) = tail) :
    parse? text = some (withTail scheme authority tail) := by
  simp only [parse?_eq_parseClean?, parseClean?, hscheme, Option.bind_eq_bind, Option.bind_some,
    husual, hraw, hauthority, Option.pure_def, htail]

section Front

theorem cutScheme?_front (h : cutScheme? cs = some (scheme, rest)) :
    ∃ raw, cs = raw ++ ':' :: rest ∧
      ∀ other, cutScheme? (raw ++ ':' :: other) = some (scheme, other) := by
  cases hcut : cutAt (· = ':') cs with
  | mk raw tail =>
      cases tail with
      | none => simp [cutScheme?, hcut] at h
      | some tail =>
          obtain ⟨mark, rfl, hraw, hmark⟩ := of_cutAt hcut
          obtain rfl : mark = ':' := of_decide_eq_true hmark
          have hother (other : List Char) :
              cutAt (· = ':') (raw ++ ':' :: other) = (raw, some other) := cutAt_run hraw hmark
          unfold cutScheme? at h ⊢
          rw [hother] at h
          cases raw with
          | nil => cases h
          | cons first others =>
              dsimp only at h
              split at h
              · rename_i hvalid
                cases h
                exact ⟨first :: others, rfl, fun other ↦ by
                  rw [hother]
                  simp only [hvalid, if_true]⟩
              · cases h

theorem authority?_nil (usual : Nat) : authority? usual [] = none := by
  simp [authority?, cutAt, hostAndService?]

/-- Slashes and the authority behind them are found whatever follows. -/
theorem authority_front {begin tail : List Char} (rest : List Char)
    (h : (rest.dropWhile isSlash).takeWhile (fun d ↦ !endsAuthority d) = begin ++ [c])
    (htail : (rest.dropWhile isSlash).dropWhile (fun d ↦ !endsAuthority d) = tail) :
    isSlash c = false ∧ (∀ d ∈ tail.head?, endsAuthority d = true) ∧
      ∃ slashes, rest = slashes ++ (begin ++ c :: tail) ∧
        ∀ other, (∀ d ∈ other.head?, endsAuthority d = true) →
          let after := (slashes ++ (begin ++ c :: other)).dropWhile isSlash
          (after.takeWhile fun d ↦ !endsAuthority d) = begin ++ [c] ∧
            (after.dropWhile fun d ↦ !endsAuthority d) = other := by
  have hrun : ∀ d ∈ begin ++ [c], (!endsAuthority d) = true := by
    rw [← h]
    exact fun d hd ↦ List.mem_takeWhile_imp (p := fun d ↦ !endsAuthority d) hd
  have hslash (d : Char) (hd : d ∈ begin ++ [c]) : isSlash d = false := by
    have hnot := hrun d hd
    simp only [endsAuthority, Bool.not_eq_true', Bool.or_eq_false_iff] at hnot
    exact hnot.1.1
  refine ⟨hslash c (by simp), ?_, rest.takeWhile isSlash, ?_, ?_⟩
  · intro d hd
    cases tail with
    | nil => cases hd
    | cons first tail =>
        cases hd
        simpa using (run_of_dropWhile htail).2.2
  · rw [List.append_cons begin, ← h, ← htail, List.takeWhile_append_dropWhile,
      List.takeWhile_append_dropWhile]
  · intro other hother
    have hslashes : ∀ d ∈ rest.takeWhile isSlash, isSlash d = true := fun d hd ↦
      List.mem_takeWhile_imp hd
    have hhead : ∀ d ∈ (begin ++ c :: other).head?, isSlash d = false := fun d hd ↦
      hslash d (mem_of_head? hd)
    dsimp only
    rw [(span_run hslashes hhead).2, List.append_cons]
    exact span_run hrun fun d hd ↦ by simp [hother d hd]

/-- The front of a URL, which ends in a character of its authority, settles scheme and authority. -/
theorem parseClean?_front (h : parseClean? cs = some url) :
    ∃ before c tail, cs = before ++ c :: tail ∧ isSlash c = false ∧
      (∀ d ∈ tail.head?, endsAuthority d = true) ∧ url = withTail url.scheme url.authority tail ∧
      ∀ other, (∀ d ∈ other.head?, endsAuthority d = true) →
        parseClean? (before ++ c :: other) = some (withTail url.scheme url.authority other) := by
  simp only [parseClean?, Option.bind_eq_bind, Option.bind_eq_some_iff, Option.pure_def,
    Option.some.injEq, Prod.exists] at h
  obtain ⟨scheme, rest, hscheme, usual, husual, authority, hauthority, rfl⟩ := h
  obtain ⟨raw, rfl, hraw⟩ := cutScheme?_front hscheme
  obtain hnil | ⟨begin, c, hlast⟩ :=
    List.eq_nil_or_concat ((rest.dropWhile isSlash).takeWhile fun d ↦ !endsAuthority d)
  · rw [hnil, authority?_nil] at hauthority
    cases hauthority
  · rw [List.concat_eq_append] at hlast
    obtain ⟨hslash, htail, slashes, hrest, hother⟩ := authority_front rest hlast rfl
    refine ⟨raw ++ ':' :: (slashes ++ begin), c, _, ?_, hslash, htail, rfl, ?_⟩
    · rw [List.append_assoc, List.cons_append, List.append_assoc, ← hrest]
    · intro other hends
      obtain ⟨hauth, hafter⟩ := hother other hends
      rw [List.append_assoc, List.cons_append, List.append_assoc]
      simp only [parseClean?, hraw, Option.bind_eq_bind, Option.bind_some, husual, hauth, hafter,
        ← hlast, hauthority, Option.pure_def]
      rfl

end Front

section Tail

/-- The part of a text that belongs to the path. -/
def pathPart (cs : List Char) : List Char := cs.takeWhile fun c ↦ c ≠ '?' && c ≠ '#'

/-- The names of the directory at which a path stands, with or without a slash at its end. -/
def folder (u : Url) : List (List Char) :=
  if u.path.getLast? = some [] then u.path.dropLast else u.path

theorem path_withTail (scheme authority rest : List Char) :
    (withTail scheme authority ('/' :: rest)).path = parsePath (pathPart rest) := by
  obtain ⟨fragment, hfragment⟩ : ∃ fragment, cutAt (· = '#') ('/' :: rest) =
      ('/' :: rest.takeWhile (fun c ↦ !decide (c = '#')), fragment) :=
    ⟨_, Prod.ext (by simp [cutAt_fst]) rfl⟩
  obtain ⟨query, hquery⟩ : ∃ query, cutAt (· = '?')
      ('/' :: rest.takeWhile (fun c ↦ !decide (c = '#'))) = ('/' :: pathPart rest, query) :=
    ⟨_, Prod.ext (by simp [cutAt_fst, List.takeWhile_takeWhile, pathPart]) rfl⟩
  simp only [withTail, hfragment, hquery]
  rfl

/-- Without query and fragment there are no marks of either. -/
theorem unmarked_of_withTail (hquery : (withTail scheme authority cs).query = none)
    (hfragment : (withTail scheme authority cs).fragment = none) :
    ∀ c ∈ cs, c ≠ '?' ∧ c ≠ '#' := by
  have hhash : ∀ c ∈ cs, decide (c = '#') = false :=
    cutAt_snd_eq_none.mp (Option.map_eq_none_iff.mp hfragment)
  have hpath : (cutAt (· = '#') cs).1 = cs := by
    rw [cutAt_fst, List.takeWhile_eq_self_iff]
    exact fun c hc ↦ by simp [hhash c hc]
  have hmark : ∀ c ∈ (cutAt (· = '#') cs).1, decide (c = '?') = false :=
    cutAt_snd_eq_none.mp (Option.map_eq_none_iff.mp hquery)
  rw [hpath] at hmark
  exact fun c hc ↦ ⟨of_decide_eq_false (hmark c hc), of_decide_eq_false (hhash c hc)⟩

theorem pathPart_append (h : ∀ c ∈ cs, c ≠ '?' ∧ c ≠ '#') (rest : List Char) :
    pathPart (cs ++ rest) = cs ++ pathPart rest := by
  rw [pathPart, List.takeWhile_append_of_pos, pathPart]
  simpa using h

theorem pathPart_run (h : ∀ c ∈ cs, c ≠ '?' ∧ c ≠ '#') (rest : List Char) :
    pathPart (cs ++ '/' :: rest) = cs ++ '/' :: pathPart rest := by
  rw [pathPart_append h]
  simp [pathPart]

/-- Nothing behind a mark belongs to the path. -/
theorem pathPart_of_marked (h : ∃ c ∈ cs, c = '?' ∨ c = '#') (rest : List Char) :
    pathPart (cs ++ rest) = pathPart cs := by
  induction cs with
  | nil => simp at h
  | cons c cs ih =>
      simp only [pathPart, List.cons_append, List.takeWhile_cons] at ih ⊢
      split
      · rename_i hc
        simp only [Bool.and_eq_true, decide_eq_true_eq] at hc
        rw [ih (by simpa [hc] using h)]
      · rfl

/-- A path that does not end in a slash leads where it leads when segments follow. -/
theorem folder_of_last {done : List (List Char)} {last : List Char} (hlast : last ≠ [])
    (h : url.path = ((arrive done last).reverse).map (percentEncode inPath)) :
    url.folder = ((enter done last).reverse).map (percentEncode inPath) := by
  have hempty : percentEncode inPath [] = [] := rfl
  rw [folder, h]
  unfold arrive enter
  split_ifs <;> simp_all [percentEncode_eq_nil]

/-- What follows a slash behind an unmarked tail leads on from the directory of the tail. -/
theorem withTail_extend (scheme authority : List Char)
    (htail : cs = [] ∨ ∃ inner d, cs = '/' :: (inner ++ [d]) ∧ isSlash d = false)
    (hmarks : ∀ c ∈ cs, c ≠ '?' ∧ c ≠ '#') :
    ∃ done : List (List Char),
      (withTail scheme authority cs).folder = done.reverse.map (percentEncode inPath) ∧
        ∀ more, (withTail scheme authority (cs ++ '/' :: more)).path =
          (resolveDots done (pieces isSlash (pathPart more))).map (percentEncode inPath) := by
  obtain rfl | ⟨inner, d, rfl, hd⟩ := htail
  · exact ⟨[], rfl, path_withTail scheme authority⟩
  · obtain ⟨first, last, hpieces, hlast⟩ := getLast_pieces_ne_nil hd inner
    have hinner : ∀ c ∈ inner ++ [d], c ≠ '?' ∧ c ≠ '#' :=
      fun c hc ↦ hmarks c (List.mem_cons_of_mem _ hc)
    refine ⟨enter (first.foldl enter []) last, folder_of_last hlast ?_, fun more ↦ ?_⟩
    · have hpart := pathPart_append hinner []
      rw [List.append_nil] at hpart
      rw [path_withTail, parsePath, hpart]
      simp only [pathPart, List.takeWhile_nil, List.append_nil]
      rw [hpieces, resolveDots_snoc]
    · rw [List.cons_append, path_withTail, parsePath, pathPart_run hinner,
        pieces_append (by decide), hpieces, resolveDots_append _ (pieces_ne_nil _ _),
        List.foldl_append]
      rfl

end Tail

section Text

/-- The end of a text without the characters that do not count there. -/
def cleanEnd (cs : List Char) : List Char := (cs.rdropWhile isEdge).filter fun c ↦ !isDropped c

theorem isEdge_of_isDropped (h : isDropped c = true) : isEdge c = true := by
  simp only [isDropped, Bool.or_eq_true, decide_eq_true_eq] at h
  rcases h with (rfl | rfl) | rfl <;> decide

theorem filter_isDropped (h : ∀ c ∈ cs, isEdge c = false) :
    (cs.filter fun c ↦ !isDropped c) = cs := by
  rw [List.filter_eq_self]
  intro c hc
  cases hdropped : isDropped c with
  | false => rfl
  | true =>
      have hedge := isEdge_of_isDropped hdropped
      rw [h c hc] at hedge
      cases hedge

/-- Only the end of a text is cleaned when what stands before it counts. -/
theorem clean_append {before : List Char} (hbefore : ∀ d ∈ before ++ [c], isEdge d = false)
    (cs : List Char) : clean (before ++ c :: cs) = before ++ c :: cleanEnd cs := by
  have hc : isEdge c = false := hbefore c (by simp)
  have hhead : ∀ d ∈ (before ++ c :: cs).head?, isEdge d = false := fun d hd ↦
    hbefore d (mem_of_head? hd)
  have hnone : ∀ d ∈ ([] : List Char), isEdge d = true := by simp
  have hstart := (span_run hnone hhead).2
  have hend := rdropWhile_run before cs hc
  rw [List.nil_append] at hstart
  rw [List.rdropWhile] at hend
  rw [clean, hstart, hend, List.append_cons, List.filter_append, filter_isDropped hbefore,
    ← cleanEnd, ← List.append_cons]

theorem cleanEnd_run (cs rest : List Char) :
    cleanEnd (cs ++ '/' :: rest) = (cs.filter fun c ↦ !isDropped c) ++ '/' :: cleanEnd rest := by
  rw [cleanEnd, rdropWhile_run cs rest (by decide), List.filter_append,
    List.filter_cons_of_pos (by decide), cleanEnd]

theorem clean_eq_self (h : ∀ c ∈ cs, isEdge c = false) : clean cs = cs := by
  obtain rfl | ⟨before, c, rfl⟩ := List.eq_nil_or_concat cs
  · rfl
  · rw [List.concat_eq_append] at h ⊢
    exact clean_append h []

/-- What is left of an unmarked tail without the slashes at its end. -/
theorem rdropWhile_tail (hhead : ∀ d ∈ cs.head?, endsAuthority d = true)
    (hchars : ∀ d ∈ cs, (d ≠ '?' ∧ d ≠ '#') ∧ d ≠ '\\') :
    cs.rdropWhile (· = '/') = [] ∨
      ∃ inner d, cs.rdropWhile (· = '/') = '/' :: (inner ++ [d]) ∧ isSlash d = false := by
  obtain ⟨rest, hcs⟩ := List.rdropWhile_prefix (· = '/') cs
  cases htrim : cs.rdropWhile (· = '/') with
  | nil => exact .inl rfl
  | cons first trimmed =>
      rw [htrim] at hcs
      obtain ⟨⟨hquestion, hhash⟩, hback⟩ := hchars first (by simp [← hcs])
      have hfirst : first = '/' := by
        have hends := hhead first (by simp [← hcs])
        simpa [endsAuthority, isSlash, hquestion, hhash, hback] using hends
      have hlast := List.rdropWhile_last_not (p := (· = '/')) (l := cs) (by simp [htrim])
      obtain rfl | ⟨inner, d, rfl⟩ := List.eq_nil_or_concat trimmed
      · simp [htrim, hfirst] at hlast
      · rw [List.concat_eq_append] at htrim hcs ⊢
        refine .inr ⟨inner, d, by rw [hfirst], ?_⟩
        have hback : d ≠ '\\' := (hchars d (by simp [← hcs])).2
        simp only [htrim, ← List.cons_append, List.getLast_append_singleton,
          decide_eq_true_eq] at hlast
        simp [isSlash, hlast, hback]

/-- Slashes are trimmed behind the last character that is none. -/
theorem toList_trimSlashes {text : String} {before tail : List Char}
    (htext : text.toList = before ++ c :: tail) (hc : isSlash c = false) :
    (trimSlashes text).toList = before ++ c :: tail.rdropWhile (· = '/') := by
  have hslash : decide (c = '/') = false := by
    simp only [isSlash, Bool.or_eq_false_iff] at hc
    exact hc.1
  rw [trimSlashes, String.toList_ofList, htext]
  exact rdropWhile_run before tail hslash

/-- A URL without query and fragment stays one when its last slashes are replaced by one, and the
segments of what follows lead on from its directory. -/
theorem parse?_extend {text : String} (h : parse? text = some url) (hquery : url.query = none)
    (hfragment : url.fragment = none)
    (hchars : ∀ c ∈ text.toList, isEdge c = false ∧ c ≠ '\\') :
    ∃ base done, parse? (trimSlashes text) = some base ∧
      base.folder = done.reverse.map (percentEncode inPath) ∧
        ∀ more, ∃ extended,
          parse? (String.ofList ((trimSlashes text).toList ++ '/' :: more)) = some extended ∧
            extended.path =
              (resolveDots done (pieces isSlash (pathPart (cleanEnd more)))).map
                (percentEncode inPath) := by
  have hsolid : ∀ c ∈ text.toList, isEdge c = false := fun c hc ↦ (hchars c hc).1
  rw [parse?_eq_parseClean?, clean_eq_self hsolid] at h
  obtain ⟨before, c, tail, htext, hc, hhead, hurl, hparse⟩ := parseClean?_front h
  have hmarks : ∀ d ∈ tail, d ≠ '?' ∧ d ≠ '#' := by
    rw [hurl] at hquery hfragment
    exact unmarked_of_withTail hquery hfragment
  have htail : ∀ d ∈ tail, (d ≠ '?' ∧ d ≠ '#') ∧ d ≠ '\\' := fun d hd ↦
    ⟨hmarks d hd, (hchars d (by simp [htext, hd])).2⟩
  have hshape := rdropWhile_tail hhead htail
  have htrim := toList_trimSlashes htext hc
  obtain ⟨rest, hrest⟩ := List.rdropWhile_prefix (· = '/') tail
  generalize tail.rdropWhile (· = '/') = kept at hshape htrim hrest
  obtain ⟨done, hfolder, hextend⟩ := withTail_extend url.scheme url.authority hshape
    fun d hd ↦ hmarks d (by simp [← hrest, hd])
  have hends : ∀ d ∈ kept.head?, endsAuthority d = true := by
    obtain rfl | ⟨inner, d, rfl, -⟩ := hshape <;> simp [endsAuthority, isSlash]
  have hsolid' : ∀ d ∈ before ++ c :: kept, isEdge d = false := fun d hd ↦ hsolid d (by
    rw [htext, ← hrest, ← List.cons_append, ← List.append_assoc]
    exact List.mem_append_left _ hd)
  refine ⟨withTail url.scheme url.authority kept, done, ?_, hfolder, fun more ↦
    ⟨withTail url.scheme url.authority (kept ++ '/' :: cleanEnd more), ?_, hextend _⟩⟩
  · rw [parse?_eq_parseClean?, htrim, clean_eq_self hsolid', hparse kept hends]
  · have hslash : ∀ d ∈ (before ++ c :: kept) ++ ['/'], isEdge d = false := by
      intro d hd
      rcases List.mem_append.mp hd with hd | hd
      · exact hsolid' d hd
      · rw [List.mem_singleton.mp hd]
        decide
    have hends' : ∀ d ∈ (kept ++ '/' :: cleanEnd more).head?, endsAuthority d = true := by
      cases kept with
      | nil => simp [endsAuthority, isSlash]
      | cons first kept => exact hends
    rw [parse?_eq_parseClean?, String.toList_ofList, htrim, clean_append hslash, List.append_assoc,
      List.cons_append, hparse _ hends']

/-- No segment of a path holds a slash of either kind. -/
theorem isSlash_of_mem_path {text : String} {segment : List Char} (h : parse? text = some url)
    (hsegment : segment ∈ url.path) (hc : c ∈ segment) : isSlash c = false := by
  rw [parse?_eq_parseClean?] at h
  obtain ⟨before, d, tail, -, -, -, hurl, -⟩ := parseClean?_front h
  have hpath : ∃ cs, url.path = parsePath cs := by
    rw [hurl]
    exact ⟨_, rfl⟩
  obtain ⟨cs, hpath⟩ := hpath
  rw [hpath, parsePath] at hsegment
  obtain ⟨plain, hplain, rfl⟩ := List.mem_map.mp hsegment
  cases hslash : isSlash c with
  | false => rfl
  | true =>
      rw [isSlash_of_mem_percentEncode hslash] at hc
      rcases of_mem_resolveDots hplain with hmem | hmem | rfl
      · cases hmem
      · exact hslash.symm.trans (of_mem_pieces hmem hc).2
      · cases hc

end Text

end CompilerDriver.Url
