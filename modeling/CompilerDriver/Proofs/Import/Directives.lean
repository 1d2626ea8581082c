import CompilerDriver.Import.Scan
import CompilerDriver.Proofs.Text.Runs

/-!
# The directives of a text

Which directives a source text has, by their grammar and their places. `Directive` is what one
reads, `Occurs` a directive at the start of a line, and `Listed` the leftmost occurrences that do
not overlap. The main result is `scan_exact`: the scan gives the paths of these occurrences, and of
a text made of lines that are free of quotes or begin with a directive it gives one path for each
line of the second kind, although blanks and paths may run over line ends.
-/

namespace CompilerDriver.Import

open Text (isBlank dropBlanks dropWhile_run takeWhile_run run_of_dropWhile run_unique)

/-- White space only, line ends included. -/
def Blanks (cs : List Char) : Prop := ∀ c ∈ cs, isBlank c = true

/-- No quotes. -/
def QuoteFree (cs : List Char) : Prop := ∀ c ∈ cs, isQuote c = false

/-- What a directive reads, from the blanks before its keyword up to its semicolon, and its path. -/
inductive Directive : List Char → List Char → Prop
  | intro {before between path : List Char} {opening closing : Char} (hbefore : Blanks before)
      (hbetween : Blanks between) (hopening : isQuote opening = true) (hne : path ≠ [])
      (hpath : QuoteFree path) (hclosing : isQuote closing = true) :
      Directive (before ++ (keyword ++ (between ++ opening :: (path ++ [closing, ';'])))) path

/-- A line starts behind a text. -/
def LineStart (before : List Char) : Prop := ∀ c ∈ before.getLast?, c = '\n'

/-- A directive begins a text that follows another. -/
def Occurs (before text : List Char) : Prop :=
  LineStart before ∧ ∃ own path rest, Directive own path ∧ text = own ++ rest

/-- The paths of the leftmost occurrences that do not overlap in a text that follows another. -/
inductive Listed : List Char → List Char → List (List Char) → Prop
  | stop {before text : List Char}
      (hnone : ∀ skipped rest, text = skipped ++ rest → ¬Occurs (before ++ skipped) rest) :
      Listed before text []
  | next {before skipped own path rest : List Char} {paths : List (List Char)}
      (hstart : LineStart (before ++ skipped)) (hown : Directive own path)
      (hfirst : ∀ earlier later, skipped = earlier ++ later → later ≠ [] →
        ¬Occurs (before ++ earlier) (later ++ (own ++ rest)))
      (hrest : Listed (before ++ skipped ++ own) rest paths) :
      Listed before (skipped ++ (own ++ rest)) (path :: paths)

variable {before text own path rest : List Char} {paths : List (List Char)} {c : Char}

section Grammar

theorem isBlank_of_isQuote (h : isQuote c = true) : isBlank c = false := by
  simp only [isQuote, Bool.or_eq_true, decide_eq_true_eq] at h
  rcases h with rfl | rfl <;> decide

theorem after?_eq_some {start : List Char} :
    after? start text = some rest ↔ text = start ++ rest := by
  unfold after?
  constructor
  · intro h
    split at h
    · rename_i hstart
      obtain ⟨tail, rfl⟩ := List.isPrefixOf_iff_prefix.mp hstart
      simpa using h
    · cases h
  · rintro rfl
    simp

theorem isQuote_not {cs : List Char} :
    (∀ c ∈ cs, (!isQuote c) = true) ↔ QuoteFree cs := by
  simp [QuoteFree]

theorem Directive.of_reader (h : directive? text = some (path, rest)) :
    ∃ own, Directive own path ∧ text = own ++ rest := by
  unfold directive? at h
  simp only [Option.bind_eq_bind, Option.bind_eq_some_iff, after?_eq_some] at h
  obtain ⟨tail, hkeyword, h⟩ := h
  split at h
  · cases h
  · rename_i opening more hopening
    obtain ⟨hbefore, hbeforeBlank, -⟩ := run_of_dropWhile hkeyword
    obtain ⟨hbetween, hbetweenBlank, -⟩ := run_of_dropWhile hopening
    split at h
    · rename_i hquote
      split at h
      · rename_i closing after hclosing
        obtain ⟨hpath, hpathFree, hclosingQuote⟩ := run_of_dropWhile hclosing
        split at h
        · cases h
        · rename_i hne
          obtain ⟨rfl, rfl⟩ := Prod.mk.inj (Option.some.inj h)
          refine ⟨_, .intro hbeforeBlank hbetweenBlank hquote (mt List.isEmpty_iff.mpr hne)
            (isQuote_not.mp hpathFree) (by simpa using hclosingQuote), ?_⟩
          calc text = text.takeWhile isBlank ++ (keyword ++ tail) := hbefore
            _ = text.takeWhile isBlank ++ (keyword ++ (tail.takeWhile isBlank ++ opening ::
                  (more.takeWhile (fun c ↦ !isQuote c) ++ closing :: ';' :: after))) := by
                rw [← hpath, ← hbetween]
            _ = _ := by simp only [List.append_assoc, List.cons_append, List.nil_append]
      · cases h
    · cases h

theorem Directive.reads (h : Directive own path) (rest : List Char) :
    directive? (own ++ rest) = some (path, rest) := by
  cases h with
  | @intro before between path opening closing hbefore hbetween hopening hne hpath hclosing =>
      have hkeyword (tail : List Char) :
          dropBlanks (before ++ (keyword ++ tail)) = keyword ++ tail :=
        dropWhile_run hbefore (by decide)
      have hquote : dropBlanks (between ++ opening :: (path ++ closing :: ';' :: rest)) =
          opening :: (path ++ closing :: ';' :: rest) :=
        dropWhile_run hbetween (isBlank_of_isQuote hopening)
      have hdrop : (path ++ closing :: ';' :: rest).dropWhile (fun c ↦ !isQuote c) =
          closing :: ';' :: rest := dropWhile_run (isQuote_not.mpr hpath) (by simp [hclosing])
      have htake : (path ++ closing :: ';' :: rest).takeWhile (fun c ↦ !isQuote c) = path :=
        takeWhile_run (isQuote_not.mpr hpath) (by simp [hclosing])
      simp only [List.append_assoc, List.cons_append, List.nil_append, directive?, hkeyword,
        after?_eq_some.mpr rfl, Option.bind_eq_bind, Option.bind_some, hquote, hopening, if_true,
        hdrop, htake]
      exact if_neg (mt List.isEmpty_iff.mp hne)

theorem directive?_eq_some :
    directive? text = some (path, rest) ↔ ∃ own, Directive own path ∧ text = own ++ rest :=
  ⟨Directive.of_reader, fun ⟨_, hown, htext⟩ ↦ htext ▸ hown.reads rest⟩

theorem Directive.length_pos (h : Directive own path) : 0 < own.length := by
  cases h
  simp only [List.length_append, List.length_cons]
  omega

theorem not_occurs_nil : ¬Occurs before [] := by
  rintro ⟨-, own, path, rest, hown, h⟩
  have hlength := hown.length_pos
  simp [(List.append_eq_nil_iff.mp h.symm).1] at hlength

end Grammar

section Places

theorem lineStart_snoc : LineStart (before ++ [c]) ↔ c = '\n' := by
  simp [LineStart]

/-- No line starts behind the semicolon of a directive. -/
theorem Directive.not_lineStart (h : Directive own path) : ¬LineStart (before ++ own) := by
  cases h with
  | @intro blanks between _ opening closing =>
      have hlast :
          before ++ (blanks ++ (keyword ++ (between ++ opening :: (path ++ [closing, ';'])))) =
            before ++ (blanks ++ (keyword ++ (between ++ opening :: (path ++ [closing])))) ++
              [';'] := by
        simp
      rw [hlast, lineStart_snoc]
      decide

/-- Where no directive occurs the list is that of the next place. -/
theorem Listed.skip (hnone : ¬Occurs before (c :: text)) (h : Listed (before ++ [c]) text paths) :
    Listed before (c :: text) paths := by
  cases h with
  | stop hlater =>
      refine .stop fun skipped rest htext ↦ ?_
      cases skipped with
      | nil => rwa [List.append_nil, ← List.nil_append rest, ← htext]
      | cons d skipped =>
          obtain ⟨rfl, rfl⟩ := List.cons.inj htext
          simpa using hlater skipped rest rfl
  | @next _ skipped own path rest paths hstart hown hfirst hrest =>
      rw [← List.cons_append]
      refine .next (by simpa using hstart) hown (fun earlier later hskipped hlater ↦ ?_)
        (by simpa using hrest)
      cases earlier with
      | nil =>
          rw [List.nil_append] at hskipped
          rwa [List.append_nil, ← hskipped]
      | cons d earlier =>
          obtain ⟨rfl, rfl⟩ := List.cons.inj hskipped
          simpa using hfirst earlier later rfl hlater

/-- How a list begins: with a directive where one occurs, else at the next place. -/
theorem Listed.step (h : Listed before text paths) :
    (LineStart before ∧ ∃ own path rest more, Directive own path ∧ text = own ++ rest ∧
        paths = path :: more ∧ Listed (before ++ own) rest more) ∨
      ¬Occurs before text ∧ ((text = [] ∧ paths = []) ∨
        ∃ c rest, text = c :: rest ∧ Listed (before ++ [c]) rest paths) := by
  cases h with
  | stop hnone =>
      refine .inr ⟨by simpa using hnone [] text rfl, ?_⟩
      cases text with
      | nil => exact .inl ⟨rfl, rfl⟩
      | cons c rest =>
          refine .inr ⟨c, rest, rfl, .stop fun skipped after hrest ↦ ?_⟩
          simpa using hnone (c :: skipped) after (by rw [hrest, List.cons_append])
  | @next _ skipped own path rest more hstart hown hfirst hrest =>
      cases skipped with
      | nil =>
          rw [List.append_nil] at hstart hrest
          exact .inl ⟨hstart, own, path, rest, more, hown, rfl, rfl, hrest⟩
      | cons c skipped =>
          refine .inr ⟨by simpa using hfirst [] (c :: skipped) rfl (by simp), .inr
            ⟨c, skipped ++ (own ++ rest), rfl, ?_⟩⟩
          refine .next (by simpa using hstart) hown (fun earlier later hskipped hlater ↦ ?_)
            (by simpa using hrest)
          simpa using hfirst (c :: earlier) later (by rw [hskipped, List.cons_append]) hlater

/-- Every text has a list. -/
theorem exists_listed (before text : List Char) : ∃ paths, Listed before text paths := by
  induction hlength : text.length using Nat.strong_induction_on generalizing before text with
  | h n ih =>
      by_cases hoccurs : Occurs before text
      · obtain ⟨hstart, own, path, rest, hown, rfl⟩ := hoccurs
        have hpos := hown.length_pos
        obtain ⟨paths, hrest⟩ := ih rest.length
          (by rw [← hlength, List.length_append]; omega) (before ++ own) rest rfl
        refine ⟨path :: paths, ?_⟩
        rw [← List.nil_append (own ++ rest)]
        exact .next (by simpa using hstart) hown (by simp) (by simpa using hrest)
      · cases text with
        | nil =>
            refine ⟨[], .stop fun skipped rest htext ↦ ?_⟩
            rw [(List.nil_eq_append_iff.mp htext).2]
            exact not_occurs_nil
        | cons c rest =>
            obtain ⟨paths, hrest⟩ := ih rest.length (by simp [← hlength]) (before ++ [c]) rest rfl
            exact ⟨paths, hrest.skip hoccurs⟩

theorem directive?_eq_none (hstart : LineStart before) (h : ¬Occurs before text) :
    directive? text = none := by
  refine Option.eq_none_iff_forall_ne_some.mpr fun ⟨path, rest⟩ hread ↦ h ⟨hstart, ?_⟩
  obtain ⟨own, hown, htext⟩ := directive?_eq_some.mp hread
  exact ⟨own, path, rest, hown, htext⟩

/-- The scan gives the list. -/
theorem Listed.scanFrom {lineStart : Bool} {fuel : Nat} (h : Listed before text paths)
    (hstart : lineStart = true ↔ LineStart before) (hfuel : text.length < fuel) :
    scanFrom fuel lineStart text = paths.map stripDot := by
  induction fuel generalizing before text paths lineStart with
  | zero => cases hfuel
  | succ fuel ih =>
      unfold Import.scanFrom
      obtain ⟨hline, own, path, rest, more, hown, rfl, rfl, hrest⟩ | ⟨hnone, hplace⟩ := h.step
      · rw [if_pos (hstart.mpr hline), hown.reads rest]
        have hpos := hown.length_pos
        rw [List.length_append] at hfuel
        have hscan := ih hrest (iff_of_false Bool.false_ne_true hown.not_lineStart) (by omega)
        exact congrArg (stripDot path :: ·) hscan
      · have hread : (if lineStart = true then directive? text else none) = none := by
          split
          · rename_i hlineStart
            exact directive?_eq_none (hstart.mp hlineStart) hnone
          · rfl
        rw [hread]
        obtain ⟨rfl, rfl⟩ | ⟨c, rest, rfl, hrest⟩ := hplace
        · rfl
        · exact ih hrest (by rw [decide_eq_true_eq, lineStart_snoc]) (Nat.lt_of_succ_lt_succ hfuel)

end Places

section Lines

/-- A line with the path of the directive that it begins with, if it begins with one. -/
structure Line where
  text : List Char
  path? : Option (List Char)

/-- A line is free of quotes, or free of them behind a directive. -/
inductive Line.Fits : Line → Prop
  | free {text : List Char} (h : QuoteFree text) : Fits ⟨text, none⟩
  | directive {own path rest : List Char} (hown : Directive own path) (hrest : QuoteFree rest) :
      Fits ⟨own ++ rest, some path⟩

variable {free : List Char}

theorem not_occurs_quoteFree (h : QuoteFree text) : ¬Occurs before text := by
  rintro ⟨-, own, path, rest, hown, rfl⟩
  cases hown with
  | @intro _ _ _ opening _ _ _ hopening =>
      rw [h opening (by simp)] at hopening
      cases hopening

theorem QuoteFree.append {a b : List Char} (ha : QuoteFree a) (hb : QuoteFree b) :
    QuoteFree (a ++ b) := fun c hc ↦ (List.mem_append.mp hc).elim (ha c) (hb c)

theorem quoteFree_keyword : QuoteFree keyword := by
  simp [QuoteFree, keyword, isQuote]

theorem Blanks.quoteFree (h : Blanks text) : QuoteFree text := fun c hc ↦ by
  cases hquote : isQuote c with
  | false => rfl
  | true => exact absurd (h c hc) (by simp [isBlank_of_isQuote hquote])

/-- Of the text before a directive, the part behind the start of the directive found is blank. -/
theorem Directive.blanks_of_append {found later after : List Char} (hfree : QuoteFree free)
    (hown : Directive own path) (hfound : Directive found later)
    (h : free ++ (own ++ rest) = found ++ after) : Blanks free := by
  cases hown with
  | @intro before between _ opening closing hbefore hbetween hopening =>
  cases hfound with
  | @intro before' between' _ opening' closing' hbefore' hbetween' hopening' =>
      -- both directives open their path at the first quote
      have hrun : QuoteFree (free ++ (before ++ (keyword ++ between))) :=
        hfree.append (hbefore.quoteFree.append (quoteFree_keyword.append hbetween.quoteFree))
      have hrun' : QuoteFree (before' ++ (keyword ++ between')) :=
        hbefore'.quoteFree.append (quoteFree_keyword.append hbetween'.quoteFree)
      have hsplit : free ++ (before ++ (keyword ++ between)) ++
            opening :: (path ++ closing :: ';' :: rest) =
          before' ++ (keyword ++ between') ++ opening' :: (later ++ closing' :: ';' :: after) := by
        simpa using h
      obtain ⟨hhead, -⟩ := run_unique (isQuote_not.mpr hrun) (by simp [hopening])
        (isQuote_not.mpr hrun') (by simp [hopening']) hsplit
      -- and the keyword before it ends at the last character that is not blank
      have hreverse := congrArg List.reverse hhead
      simp only [List.reverse_append, List.append_assoc, keyword, List.reverse_cons,
        List.nil_append, List.cons_append] at hreverse
      obtain ⟨-, -, htail⟩ := run_unique (fun c hc ↦ hbetween c (List.mem_reverse.mp hc))
        (by decide) (fun c hc ↦ hbetween' c (List.mem_reverse.mp hc)) (by decide) hreverse
      have hfront : free ++ before = before' := by
        simpa [← List.reverse_append] using htail
      exact fun c hc ↦ hbefore' c (hfront ▸ List.mem_append_left _ hc)

theorem Directive.blanks_append (hblanks : Blanks free) (hown : Directive own path) :
    Directive (free ++ own) path := by
  cases hown with
  | intro hbefore hbetween hopening hne hpath hclosing =>
      rw [← List.append_assoc]
      exact .intro (fun c hc ↦ (List.mem_append.mp hc).elim (hblanks c) (hbefore c)) hbetween
        hopening hne hpath hclosing

/-- A directive at the start of a line is listed behind any text without quotes, perhaps with
blanks of that text. -/
theorem Listed.directive (hfree : QuoteFree free) (hstart : LineStart (before ++ free))
    (hown : Directive own path) (hrest : Listed (before ++ (free ++ own)) rest paths) :
    Listed before (free ++ (own ++ rest)) (path :: paths) := by
  induction free generalizing before with
  | nil => exact .next hstart hown (by simp) (by simpa using hrest)
  | cons c free ih =>
      by_cases hblank : LineStart before ∧ Blanks (c :: free)
      · have hall := hown.blanks_append hblank.2
        rw [← List.append_assoc, ← List.nil_append (c :: free ++ own ++ rest)]
        exact .next (by simpa using hblank.1) hall (by simp) (by simpa using hrest)
      · have hnone : ¬Occurs before (c :: free ++ (own ++ rest)) := by
          rintro ⟨hline, found, later, after, hfound, h⟩
          exact hblank ⟨hline, hown.blanks_of_append hfree hfound h⟩
        refine .skip hnone (ih (fun d hd ↦ hfree d (List.mem_cons_of_mem _ hd)) ?_ ?_)
        · simpa using hstart
        · simpa using hrest

theorem Listed.quoteFree (h : QuoteFree text) : Listed before text [] :=
  .stop fun _ _ htext ↦
    not_occurs_quoteFree fun c hc ↦ h c (htext ▸ List.mem_append_right _ hc)

/-- A text is listed with these paths behind any text without quotes. -/
def Continues (text : List Char) (paths : List (List Char)) : Prop :=
  ∀ before free, QuoteFree free → Listed before (free ++ text) paths

theorem Line.Fits.listed {line : Line} (hline : line.Fits) (hrest : Continues rest paths)
    (hfree : QuoteFree free) (hstart : LineStart (before ++ free)) :
    Listed before (free ++ (line.text ++ rest)) (line.path?.toList ++ paths) := by
  cases hline with
  | @free text h =>
      rw [← List.append_assoc]
      exact hrest _ _ (hfree.append h)
  | @directive own path after hown hafter =>
      rw [List.append_assoc]
      exact .directive hfree hstart hown (hrest _ _ hafter)

/-- Further lines, each behind its line end. -/
def ended (lines : List Line) : List Char := lines.flatMap fun line ↦ '\n' :: line.text

theorem intercalate_lines (line : Line) (lines : List Line) :
    ['\n'].intercalate ((line :: lines).map Line.text) = line.text ++ ended lines := by
  induction lines generalizing line with
  | nil => simp [ended]
  | cons next lines ih =>
      rw [List.map_cons, List.map_cons, List.intercalate_cons_cons, ← List.map_cons, ih]
      simp [ended]

theorem ended_continues {lines : List Line} (h : ∀ line ∈ lines, line.Fits) :
    Continues (ended lines) (lines.filterMap Line.path?) := by
  induction lines with
  | nil =>
      intro before free hfree
      simpa [ended] using Listed.quoteFree hfree
  | cons line lines ih =>
      obtain ⟨hline, hlines⟩ := List.forall_mem_cons.mp h
      intro before free hfree
      have hend : QuoteFree ['\n'] := by simp [QuoteFree, isQuote]
      have hstart : LineStart (before ++ (free ++ ['\n'])) := by
        rw [← List.append_assoc, lineStart_snoc]
      have hlisted := hline.listed (ih hlines) (hfree.append hend) hstart
      rw [List.append_assoc] at hlisted
      cases hpath : line.path? with
      | none => simpa [ended, hpath] using hlisted
      | some path => simpa [ended, hpath] using hlisted

/-- The path that is given for a directive. -/
def shown (path : List Char) : String := .ofList (stripDot path)

theorem Listed.scan_eq {source : String} (h : Listed [] source.toList paths) :
    scan source = paths.map shown := by
  have hscan := h.scanFrom (iff_of_true rfl (by simp [LineStart])) (Nat.lt_succ_self _)
  rw [String.length_toList] at hscan
  rw [scan, hscan, List.map_map]
  rfl

/-- The scan gives the paths of the leftmost directives that do not overlap, in their order. Of
lines that are free of quotes or begin with a directive, each of the latter kind gives its path. -/
theorem scan_exact :
    (∀ source, (∃ paths, Listed [] source.toList paths) ∧
        ∀ paths, Listed [] source.toList paths → scan source = paths.map shown) ∧
      ∀ lines : List Line, (∀ line ∈ lines, line.Fits) →
        scan (.ofList (['\n'].intercalate (lines.map Line.text))) =
          (lines.filterMap Line.path?).map shown := by
  refine ⟨fun source ↦ ⟨exists_listed [] source.toList, fun paths ↦ Listed.scan_eq⟩,
    fun lines hlines ↦ Listed.scan_eq ?_⟩
  rw [String.toList_ofList]
  cases lines with
  | nil => exact .quoteFree (by simp [QuoteFree])
  | cons line lines =>
      obtain ⟨hline, hlines⟩ := List.forall_mem_cons.mp hlines
      have hlisted : Listed [] ([] ++ (line.text ++ ended lines)) _ :=
        hline.listed (ended_continues hlines) (by simp [QuoteFree]) (by simp [LineStart])
      rw [intercalate_lines]
      cases hpath : line.path? with
      | none => simpa [hpath] using hlisted
      | some path => simpa [hpath] using hlisted

/-- A directive is listed from a blank line before it on, behind a keyword without a path. -/
theorem scan_behind_blank_line :
    scan "import\n\t\n import './B.sol'; x" = ["B.sol"] := by
  have hown : Directive (" ".toList ++ (keyword ++ (" ".toList ++ '\'' ::
      ("./B.sol".toList ++ ['\'', ';'])))) "./B.sol".toList :=
    .intro (by simp [Blanks]; decide) (by simp [Blanks]; decide) (by decide) (by decide)
      (by simp [QuoteFree, isQuote]) (by decide)
  have hkeyword : Line.Fits ⟨"import".toList, none⟩ := .free (by simp [QuoteFree, isQuote])
  have hblank : Line.Fits ⟨"\t".toList, none⟩ := .free (by simp [QuoteFree, isQuote])
  have hrest : QuoteFree " x".toList := by simp [QuoteFree, isQuote]
  have hscan := scan_exact.2 _ (List.forall_mem_cons.mpr ⟨hkeyword, List.forall_mem_cons.mpr
    ⟨hblank, List.forall_mem_singleton.mpr (.directive hown hrest)⟩⟩)
  refine Eq.trans (congrArg scan ?_) (hscan.trans ?_)
  · decide
  · decide

end Lines

end CompilerDriver.Import
