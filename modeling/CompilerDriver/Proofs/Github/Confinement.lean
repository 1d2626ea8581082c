import CompilerDriver.Github.Contents
import CompilerDriver.Proofs.Url.Extension

/-!
# Where fetches go

A fetch is meant for files of the repository it names. The text of owner, name and path is put
into a URL as it is, though, and read as part of one. The main result is `fetch_inside_iff`: owner
and name must be `Plain`, and the path must not lead out of the repository, or go back in along the
names it left (`Returns`). Paths that lead out do reach other repositories
(`fetch_leaves_repository`).
-/

namespace CompilerDriver.Github

open Text (length_pieces pieces pieces_append pieces_ne_nil pieces_of_uncut)
open Url (Course Enters arrive cleanEnd enter enters_of_length folder inPath isDot isDotDot
  isDropped isEdge isSlash leave length_enter_le length_resolveDots_le parse?_extend pathPart
  percentEncode resolveDots writePath)

variable {apiUrl repo path text : String} {owner name : List Char} {config : Config}
  {base url : Url}

/-- A character that may stand in a well-formed URL: no control character, blank or backslash. -/
def isUrlCharacter (c : Char) : Bool := !isEdge c && c ≠ '\\'

/-- A URL at which a service may be, without query and fragment. -/
structure ApiUrl (text : String) : Prop where
  parses : ∃ url, Url.parse? text = some url ∧ url.query = none ∧ url.fragment = none
  wellFormed : text.toList.all isUrlCharacter = true

/-- A fetch is the exchange that a request begins. -/
def Sends (config : Config) (repo path : String) (request : Request) : Prop :=
  ∃ named, ∀ {σ : Type} (transport : Request → σ → Option Response × σ) (s : σ),
    fetch transport config repo path s = exchange transport named request redirectLimit s

/-- The segments before those of a file in a repository. -/
def contentsFolder (base : Url) (owner name : List Char) : List (List Char) :=
  base.folder ++
    ["repos".toList, percentEncode inPath owner, percentEncode inPath name, "contents".toList]

/-- A URL of a file in a repository of the service at `base`. -/
def Inside (base : Url) (owner name : List Char) (url : Url) : Prop :=
  writePath (contentsFolder base owner name) ++ ['/'] <+: writePath url.path

/-- An owner or a name that stands for itself between two slashes of a URL. -/
structure Plain (segment : List Char) : Prop where
  unmarked : ∀ c ∈ segment, c ≠ '?' ∧ c ≠ '#'
  whole : '\\' ∉ segment
  kept : ∀ c ∈ segment, isDropped c = false
  enters : Enters segment

instance (segment : List Char) : Decidable (Plain segment) :=
  decidable_of_iff
    ((segment.all fun c ↦ c ≠ '?' && c ≠ '#' && c ≠ '\\' && !isDropped c) = true ∧
      isDot segment = false ∧ isDotDot segment = false) <| by
    simp only [List.all_eq_true, Bool.and_eq_true, decide_eq_true_eq, Bool.not_eq_true']
    exact ⟨fun ⟨hall, henters⟩ ↦ ⟨fun c hc ↦ (hall c hc).1.1, fun hmem ↦ (hall _ hmem).1.2 rfl,
        fun c hc ↦ (hall c hc).2, henters⟩,
      fun h ↦ ⟨fun c hc ↦ ⟨⟨h.unmarked c hc, fun heq ↦ h.whole (heq ▸ hc)⟩, h.kept c hc⟩,
        h.enters⟩⟩

/-- Where the path of a file leads from the directory of all files. -/
def course (path : String) : Course :=
  Course.along ⟨0, []⟩ (pieces isSlash (pathPart (cleanEnd (path.toList.dropWhile (· = '/')))))

/-- Out of a directory as many levels as a path leaves it, the names along which it then goes in
lead back to it, and further. -/
def Returns (place : List (List Char)) (path : String) : Prop :=
  ∃ back more, more ≠ [] ∧
    (course path).entered.reverse.map (percentEncode inPath) = back ++ more ∧
    (leave^[(course path).out] place.reverse).reverse ++ back = place

section Request

/-- What the URL of a file has behind that of the service and a slash. -/
def fileText (owner name rest : List Char) : List Char :=
  "repos".toList ++ '/' :: (owner ++ '/' :: (name ++ '/' :: ("contents".toList ++ '/' :: rest)))

theorem fileText_eq (owner name rest : List Char) : fileText owner name rest = "repos".toList ++
    '/' :: (owner ++ '/' :: (name ++ '/' :: ("contents".toList ++ '/' :: rest))) := rfl

theorem contentsUrl_eq (hrepo : isRepo repo = true) (hname : repo.toList = owner ++ '/' :: name) :
    contentsUrl config repo path = .ok (String.ofList (config.apiUrl.toList ++
      '/' :: fileText owner name (path.toList.dropWhile (· = '/')))) := by
  rw [contentsUrl, if_pos hrepo]
  congr 1
  apply String.toList_inj.mp
  simp [String.toList_append, hname, fileText_eq]

/-- A fetch of a file whose URL can be read sends a request for it. -/
theorem sends_of_contentsUrl (hurl : contentsUrl config repo path = .ok text)
    (hparse : Url.parse? text = some url) (htoken : config.token.all isHeaderValue = true) :
    Sends config repo path ⟨url, config.token, config.userAgent⟩ := by
  refine ⟨text, fun transport s ↦ ?_⟩
  have hrequest : request? config text = .ok ⟨url, config.token, config.userAgent⟩ := by
    simp only [request?, hparse, htoken, if_true]
  simp only [fetch, hurl, hrequest]

end Request

section Names

/-- A repository is an owner and a name, neither of which holds a slash. -/
theorem of_isRepo (hrepo : isRepo repo = true) (hname : repo.toList = owner ++ '/' :: name) :
    '/' ∉ owner ∧ '/' ∉ name := by
  have hcut : pieces (· = '/') (owner ++ '/' :: name) = pieces (· = '/') owner ++
      pieces (· = '/') name := pieces_append (by decide) owner name
  have howner := length_pieces (· = '/') owner
  have hname' := length_pieces (· = '/') name
  rw [isRepo, hname, hcut] at hrepo
  split at hrepo
  · rename_i first second hpieces
    have hlength := congrArg List.length hpieces
    rw [List.length_append] at hlength
    have hzero : owner.countP (· = '/') = 0 ∧ name.countP (· = '/') = 0 := by
      simp only [List.length_cons, List.length_nil] at hlength
      omega
    simp only [List.countP_eq_zero, decide_eq_true_eq] at hzero
    exact ⟨fun hmem ↦ hzero.1 _ hmem rfl, fun hmem ↦ hzero.2 _ hmem rfl⟩
  · cases hrepo

/-- A URL is inside a repository if its segments are those of the repository and more. -/
theorem inside_iff (hbase : Url.parse? text = some base) {other : String}
    (hurl : Url.parse? other = some url) (howner : '/' ∉ owner) (hname : '/' ∉ name) :
    Inside base owner name url ↔
      ∃ more, more ≠ [] ∧ url.path = contentsFolder base owner name ++ more := by
  have hslash {u : Url} {t : String} (hu : Url.parse? t = some u) : ∀ s ∈ u.path, '/' ∉ s := by
    intro s hs hmem
    have hno := Url.isSlash_of_mem_path hu hs hmem
    cases hno
  refine Url.writePath_isPrefix_iff ?_ (hslash hurl)
  have henc (s : List Char) (hs : '/' ∉ s) : '/' ∉ percentEncode inPath s := by
    rwa [Url.isSlash_of_mem_percentEncode (by decide)]
  have hfolder : ∀ s ∈ base.folder, '/' ∉ s := by
    intro s hs
    rw [folder] at hs
    split at hs
    · exact hslash hbase s (List.dropLast_subset _ hs)
    · exact hslash hbase s hs
  intro s hs
  rw [contentsFolder, List.mem_append] at hs
  rcases hs with hs | hs
  · exact hfolder s hs
  · simp only [List.mem_cons, List.not_mem_nil, or_false] at hs
    rcases hs with rfl | rfl | rfl | rfl
    · decide
    · exact henc _ howner
    · exact henc _ hname
    · decide

end Names

section Path

variable {done : List (List Char)} {rest : List Char}

theorem cleanEnd_fileText (owner name rest : List Char) :
    cleanEnd (fileText owner name rest) =
      fileText (owner.filter fun c ↦ !isDropped c) (name.filter fun c ↦ !isDropped c)
        (cleanEnd rest) := by
  have hrepos : ("repos".toList.filter fun c ↦ !isDropped c) = "repos".toList := by decide
  have hcontents : ("contents".toList.filter fun c ↦ !isDropped c) = "contents".toList := by decide
  simp only [fileText_eq, Url.cleanEnd_run, hrepos, hcontents]

/-- The segments of a file's path when owner and name are one each. -/
theorem pieces_fileText (howner : ∀ c ∈ owner, (c ≠ '?' ∧ c ≠ '#') ∧ isSlash c = false)
    (hname : ∀ c ∈ name, (c ≠ '?' ∧ c ≠ '#') ∧ isSlash c = false) (rest : List Char) :
    pieces isSlash (pathPart (fileText owner name rest)) =
      "repos".toList :: owner :: name :: "contents".toList :: pieces isSlash (pathPart rest) := by
  have hrun (s rest : List Char) (hs : ∀ c ∈ s, (c ≠ '?' ∧ c ≠ '#') ∧ isSlash c = false) :
      pieces isSlash (pathPart (s ++ '/' :: rest)) = s :: pieces isSlash (pathPart rest) := by
    rw [Url.pathPart_run fun c hc ↦ (hs c hc).1, pieces_append (by decide),
      pieces_of_uncut fun c hc ↦ (hs c hc).2, List.singleton_append]
  rw [fileText_eq, hrun _ _ (by simp [isSlash]), hrun _ _ howner, hrun _ _ hname,
    hrun _ _ (by simp [isSlash])]

theorem contentsFolder_reverse (h : base.folder = done.reverse.map (percentEncode inPath)) :
    (contentsFolder base owner name).reverse =
      ("contents".toList :: name :: owner :: "repos".toList :: done).map
        (percentEncode inPath) := by
  have hrepos : percentEncode inPath "repos".toList = "repos".toList := by decide
  have hcontents : percentEncode inPath "contents".toList = "contents".toList := by decide
  rw [contentsFolder, h, List.reverse_append, ← List.map_reverse, List.reverse_reverse]
  simp only [List.map_cons, hrepos, hcontents]
  rfl

/-- Unless owner or name are dots, the segments of a path lead on behind them. -/
theorem resolveDots_behind (done : List (List Char)) {segments : List (List Char)}
    (howner : Enters owner) (hname : Enters name) (h : segments ≠ []) :
    resolveDots done ("repos".toList :: owner :: name :: "contents".toList :: segments) =
      resolveDots ("contents".toList :: name :: owner :: "repos".toList :: done) segments := by
  have hrepos : Enters "repos".toList := ⟨rfl, rfl⟩
  have hcontents : Enters "contents".toList := ⟨rfl, rfl⟩
  calc resolveDots done ("repos".toList :: owner :: name :: "contents".toList :: segments)
    _ = resolveDots (["repos".toList, owner, name, "contents".toList].foldl enter done) segments :=
        Url.resolveDots_append ["repos".toList, owner, name, "contents".toList] h
    _ = _ := by
        simp only [List.foldl_cons, List.foldl_nil, hrepos.enter, howner.enter, hname.enter,
          hcontents.enter]

/-- With a plain owner and name, a path leads on from the directory of all files. -/
theorem path_of_plain (hfolder : base.folder = done.reverse.map (percentEncode inPath))
    (howner : Plain owner) (hname : Plain name) (hslash : '/' ∉ owner ∧ '/' ∉ name)
    (path : String) :
    (resolveDots done (pieces isSlash (pathPart (cleanEnd
        (fileText owner name (path.toList.dropWhile (· = '/'))))))).map (percentEncode inPath) =
      (leave^[(course path).out] (contentsFolder base owner name).reverse).reverse ++
        (course path).entered.reverse.map (percentEncode inPath) := by
  have hplain (s : List Char) (hs : Plain s) (hno : '/' ∉ s) :
      ∀ c ∈ s, (c ≠ '?' ∧ c ≠ '#') ∧ isSlash c = false := by
    intro c hc
    have hslash : c ≠ '/' := fun heq ↦ hno (heq ▸ hc)
    have hback : c ≠ '\\' := fun heq ↦ hs.whole (heq ▸ hc)
    exact ⟨hs.unmarked c hc, by simp [isSlash, hslash, hback]⟩
  have hkept (s : List Char) (hs : Plain s) : (s.filter fun c ↦ !isDropped c) = s := by
    rw [List.filter_eq_self]
    exact fun c hc ↦ by simp [hs.kept c hc]
  have hpieces := pieces_ne_nil isSlash (pathPart (cleanEnd (path.toList.dropWhile (· = '/'))))
  have hlead := resolveDots_behind done howner.enters hname.enters hpieces
  have hplace : (contentsFolder base owner name).reverse = _ := contentsFolder_reverse hfolder
  rw [cleanEnd_fileText, hkept owner howner, hkept name hname,
    pieces_fileText (hplain owner howner hslash.1) (hplain name hname hslash.2)]
  generalize "contents".toList :: name :: owner :: "repos".toList :: done = place at hlead hplace
  have hcourse := Course.resolveDots_place ⟨0, []⟩ place hpieces
  have hstart : Course.place ⟨0, []⟩ place = place := rfl
  rw [hstart, ← course] at hcourse
  rw [hlead, hcourse, hplace, Url.leave_iterate_encoded, Course.place, List.reverse_append,
    List.map_append, List.map_reverse]

end Path

section Odd

variable {done : List (List Char)}

/-- A mark in owner or name leaves too few segments. -/
theorem unmarked_of_length (howner : ∀ c ∈ owner, isSlash c = false)
    (hname : ∀ c ∈ name, isSlash c = false)
    (h : done.length + 4 <
      (resolveDots done (pieces isSlash (pathPart (fileText owner name [])))).length) :
    (∀ c ∈ owner, c ≠ '?' ∧ c ≠ '#') ∧ ∀ c ∈ name, c ≠ '?' ∧ c ≠ '#' := by
  have hnone (s : List Char) (hs : ∀ c ∈ s, isSlash c = false) : s.countP isSlash = 0 := by
    simpa [List.countP_eq_zero] using hs
  have hbound := length_resolveDots_le done (pieces isSlash (pathPart (fileText owner name [])))
  rw [length_pieces] at hbound
  suffices hall : ∀ c ∈ "repos".toList ++ '/' :: (owner ++ '/' :: name), c ≠ '?' ∧ c ≠ '#' by
    exact ⟨fun c hc ↦ hall c (by simp [hc]), fun c hc ↦ hall c (by simp [hc])⟩
  intro c hc
  by_contra hmark
  have hfile : fileText owner name [] = ("repos".toList ++ '/' :: (owner ++ '/' :: name)) ++
      '/' :: ("contents".toList ++ ['/']) := by simp [fileText_eq]
  have hcount : (pathPart (fileText owner name [])).countP isSlash ≤ 2 := by
    rw [hfile, Url.pathPart_of_marked ⟨c, hc, or_iff_not_and_not.mpr hmark⟩]
    refine (List.Sublist.countP_le (List.takeWhile_prefix _).sublist).trans ?_
    rw [List.countP_append, List.countP_cons, List.countP_append, List.countP_cons,
      hnone owner howner, hnone name hname]
    decide
  omega

/-- Dots for owner or name leave too few segments, too. -/
theorem enters_of_length_path
    (h : done.length + 4 <
      (resolveDots done ["repos".toList, owner, name, "contents".toList, []]).length) :
    Enters owner ∧ Enters name := by
  have hrepos : Enters "repos".toList := ⟨rfl, rfl⟩
  have hsplit : resolveDots done ["repos".toList, owner, name, "contents".toList, []] =
      resolveDots (enter (enter ("repos".toList :: done) owner) name) ["contents".toList, []] := by
    rw [← hrepos.enter done]
    exact Url.resolveDots_append ["repos".toList, owner, name] (by simp)
  have howner := length_enter_le ("repos".toList :: done) owner
  have hname := length_enter_le (enter ("repos".toList :: done) owner) name
  have hrest := length_resolveDots_le (enter (enter ("repos".toList :: done) owner) name)
    ["contents".toList, []]
  rw [hsplit] at h
  simp only [List.length_cons, List.length_nil] at howner hrest
  constructor
  · apply enters_of_length ("repos".toList :: done)
    rw [List.length_cons]
    omega
  · apply enters_of_length (enter ("repos".toList :: done) owner)
    omega

/-- Only with a plain owner and name does the empty path lead to the directory of all files. -/
theorem plain_of_path {more : List (List Char)}
    (hfolder : base.folder = done.reverse.map (percentEncode inPath))
    (howner : ∀ c ∈ owner, isSlash c = false) (hname : ∀ c ∈ name, isSlash c = false)
    (hmore : more ≠ [])
    (h : (resolveDots done (pieces isSlash (pathPart (cleanEnd (fileText owner name []))))).map
      (percentEncode inPath) = contentsFolder base owner name ++ more) :
    Plain owner ∧ Plain name := by
  obtain ⟨owner', howner'⟩ : ∃ s, s = owner.filter fun c ↦ !isDropped c := ⟨_, rfl⟩
  obtain ⟨name', hname'⟩ : ∃ s, s = name.filter fun c ↦ !isDropped c := ⟨_, rfl⟩
  have hempty : cleanEnd [] = [] := rfl
  rw [cleanEnd_fileText, hempty, ← howner', ← hname'] at h
  have hsub {s s' : List Char} (hs : ∀ c ∈ s, isSlash c = false)
      (heq : s' = s.filter fun c ↦ !isDropped c) : ∀ c ∈ s', isSlash c = false := by
    rw [heq]
    exact fun c hc ↦ hs c (List.mem_of_mem_filter hc)
  have hlong : done.length + 4 <
      (resolveDots done (pieces isSlash (pathPart (fileText owner' name' [])))).length := by
    have hlength := congrArg List.length h
    have hpos := List.length_pos_iff.mpr hmore
    simp only [List.length_map, List.length_append, contentsFolder, hfolder, List.length_reverse,
      List.length_cons, List.length_nil] at hlength
    omega
  obtain ⟨hunmarked, hunmarked'⟩ :=
    unmarked_of_length (hsub howner howner') (hsub hname hname') hlong
  have hpieces : pieces isSlash (pathPart []) = [[]] := rfl
  rw [pieces_fileText (fun c hc ↦ ⟨hunmarked c hc, hsub howner howner' c hc⟩)
    (fun c hc ↦ ⟨hunmarked' c hc, hsub hname hname' c hc⟩), hpieces] at h hlong
  obtain ⟨henters, henters'⟩ := enters_of_length_path hlong
  have hpath : resolveDots done ["repos".toList, owner', name', "contents".toList, []] =
      done.reverse ++ ["repos".toList, owner', name', "contents".toList, []] := by
    rw [resolveDots_behind done henters henters' (by simp), Url.resolveDots_last]
    simp [arrive, show Url.isDotDot [] = false from rfl, show Url.isDot [] = false from rfl]
  rw [hpath, contentsFolder, hfolder, List.map_append, List.append_assoc,
    List.append_cancel_left_eq] at h
  simp only [List.map_cons, List.cons_append, List.cons.injEq] at h
  have hplain {s s' : List Char} (heq : s' = s.filter fun c ↦ !isDropped c)
      (hsame : percentEncode inPath s' = percentEncode inPath s)
      (hmarks : ∀ c ∈ s', c ≠ '?' ∧ c ≠ '#') (hslash : ∀ c ∈ s, isSlash c = false)
      (henters : Enters s') : Plain s := by
    rw [heq] at hsame
    have hself := Url.filter_eq_self_of_percentEncode hsame
    rw [hself] at heq
    subst heq
    refine ⟨hmarks, fun hback ↦ ?_, fun c hc ↦ ?_, henters⟩
    · have hno := hslash _ hback
      cases hno
    · simpa using List.filter_eq_self.mp hself c hc
  exact ⟨hplain howner' h.2.1 hunmarked howner henters,
    hplain hname' h.2.2.1 hunmarked' hname henters'⟩

end Odd

/-- Names that lead on from a place outside lead into it exactly if they lead back to it first. -/
theorem leads_back_iff {place entered : List (List Char)} (n : Nat) :
    (∃ more, more ≠ [] ∧ (leave^[n] place.reverse).reverse ++ entered = place ++ more) ↔
      ∃ back more, more ≠ [] ∧ entered = back ++ more ∧
        (leave^[n] place.reverse).reverse ++ back = place := by
  constructor
  · rintro ⟨more, hmore, h⟩
    obtain ⟨back, hback⟩ : (leave^[n] place.reverse).reverse <+: place := by
      rw [← List.reverse_suffix, List.reverse_reverse]
      exact Url.leave_iterate_suffix n place.reverse
    refine ⟨back, more, hmore, ?_, hback⟩
    rwa [← hback, List.append_assoc, hback, List.append_cancel_left_eq] at h
  · rintro ⟨back, more, hmore, rfl, hback⟩
    exact ⟨more, hmore, by rw [← List.append_assoc, hback]⟩

/-- A fetch from a well-formed service sends a request for any path. With a plain owner and name it
is for a file of the repository exactly if the path stays in it or returns to it; with others it is
not even so for the empty path. -/
theorem fetch_inside_iff (env : Environment) (token : Option String) (timeout : Option Duration)
    (hurl : ApiUrl apiUrl) (htoken : token.all isHeaderValue = true) (hrepo : isRepo repo = true)
    (hname : repo.toList = owner ++ '/' :: name) :
    ∃ base, Url.parse? (trimSlashes apiUrl) = some base ∧
      ∀ path, ∃ request,
        Sends { Config.forApi env apiUrl with token := token, timeout := timeout } repo path
          request ∧
        (Plain owner ∧ Plain name →
          (Inside base owner name request.url ↔ Returns (contentsFolder base owner name) path)) ∧
        (¬(Plain owner ∧ Plain name) → path = "" → ¬Inside base owner name request.url) := by
  obtain ⟨url, hparse, hquery, hfragment⟩ := hurl.parses
  have hchars : ∀ c ∈ apiUrl.toList, isEdge c = false ∧ c ≠ '\\' := by
    simpa [isUrlCharacter, and_comm] using List.all_eq_true.mp hurl.wellFormed
  obtain ⟨base, done, hbase, hfolder, hextend⟩ := parse?_extend hparse hquery hfragment hchars
  have hslash := of_isRepo hrepo hname
  refine ⟨base, hbase, fun path ↦ ?_⟩
  obtain ⟨extended, hextended, hpath⟩ :=
    hextend (fileText owner name (path.toList.dropWhile (· = '/')))
  have hcontents : contentsUrl { Config.forApi env apiUrl with token := token, timeout := timeout }
      repo path = .ok (String.ofList ((trimSlashes apiUrl).toList ++
        '/' :: fileText owner name (path.toList.dropWhile (· = '/')))) :=
    contentsUrl_eq hrepo hname
  refine ⟨_, sends_of_contentsUrl hcontents hextended htoken, ?_, ?_⟩
  · rintro ⟨howner, hplain⟩
    rw [inside_iff hbase hextended hslash.1 hslash.2, hpath,
      path_of_plain hfolder howner hplain hslash, leads_back_iff]
    rfl
  · rintro hodd rfl hinside
    rw [inside_iff hbase hextended hslash.1 hslash.2] at hinside
    obtain ⟨more, hmore, hmoves⟩ := hinside
    -- a slash of either kind would be one inside a segment
    have hwhole (s : List Char) (hs : percentEncode inPath s ∈ contentsFolder base owner name) :
        ∀ c ∈ s, isSlash c = false := by
      intro c hc
      cases hslash : isSlash c with
      | false => rfl
      | true =>
          have hmem : percentEncode inPath s ∈ extended.path := by
            rw [hmoves]
            exact List.mem_append_left _ hs
          have hc' := (Url.isSlash_of_mem_percentEncode hslash).mpr hc
          exact hslash.symm.trans (Url.isSlash_of_mem_path hextended hmem hc')
    exact hodd (plain_of_path hfolder (hwhole owner (by simp [contentsFolder]))
      (hwhole name (by simp [contentsFolder])) hmore (hpath ▸ hmoves))

/-- The usual host stands for itself, with the usual service number. -/
theorem authority?_defaultHost :
    Url.authority? 443 "api.github.com".toList = some "api.github.com".toList := by
  have hdigits : "".toNat? = none := by
    simp [String.toNat?, String.Slice.toNat?, String.Slice.isNat]
  simp [Url.authority?, Url.hostAndService?, Text.cutAt, hdigits, Url.isForbiddenInHost]

/-- What the usual host is asked for is read from the text behind it. -/
theorem parse?_defaultHost {tail : List Char}
    (hscheme : Url.cutScheme? (Url.clean text.toList) =
      some ("https".toList, "//api.github.com".toList ++ tail))
    (htail : tail.head?.all Url.endsAuthority = true) :
    Url.parse? text = some (Url.withTail "https".toList "api.github.com".toList tail) := by
  have hslash : ("//api.github.com".toList ++ tail).dropWhile isSlash =
      "api.github.com".toList ++ tail := by simp [isSlash]
  have hrun : ∀ d ∈ "api.github.com".toList, (!Url.endsAuthority d) = true := by
    simp [Url.endsAuthority, isSlash]
  have hends : ∀ d ∈ tail.head?, (!Url.endsAuthority d) = false := by
    simpa [Option.all_eq_true] using htail
  obtain ⟨hraw, hafter⟩ := Text.span_run hrun hends
  rw [← hslash] at hraw hafter
  exact Url.parse?_of_parts hscheme rfl hraw authority?_defaultHost hafter

/-- A path that leaves the directory of all files and comes back to it is inside. -/
theorem path_comes_back :
    ApiUrl "https://api.github.com/v3/" ∧ isRepo "acme/lib" = true ∧
      ∃ base request, Url.parse? (trimSlashes "https://api.github.com/v3/") = some base ∧
        Sends { Config.forApi {} "https://api.github.com/v3/" with token := some "t" }
          "acme/lib" "../contents/U.sol" request ∧
        Inside base "acme".toList "lib".toList request.url := by
  have hscheme : Url.cutScheme? (Url.clean "https://api.github.com/v3/".toList) =
      some ("https".toList, "//api.github.com".toList ++ "/v3/".toList) := by decide +kernel
  have hurl : ApiUrl "https://api.github.com/v3/" :=
    ⟨⟨_, parse?_defaultHost hscheme rfl, rfl, rfl⟩, by decide +kernel⟩
  have hrepo : isRepo "acme/lib" = true := by decide +kernel
  have hname : "acme/lib".toList = "acme".toList ++ '/' :: "lib".toList := by decide +kernel
  obtain ⟨base, hbase, hsends⟩ :=
    fetch_inside_iff {} (some "t") (some ⟨30, 0⟩) hurl (by decide) hrepo hname
  obtain ⟨request, hrequest, hinside, -⟩ := hsends "../contents/U.sol"
  refine ⟨hurl, hrepo, base, request, hbase, hrequest, (hinside ⟨?_, ?_⟩).mpr ?_⟩
  · decide
  · decide
  · have hcourse : course "../contents/U.sol" = ⟨1, ["U.sol".toList, "contents".toList]⟩ := rfl
    refine ⟨["contents".toList], ["U.sol".toList], by simp, by rw [hcourse]; decide, ?_⟩
    rw [hcourse]
    simp [contentsFolder, leave, Url.isDriveLetter]

/-- A path that leads out of its repository, and into another one, is asked for. -/
theorem fetch_leaves_repository :
    ApiUrl Config.defaultApiUrl ∧ isRepo "acme/lib" = true ∧
      ∃ base request, Url.parse? (trimSlashes Config.defaultApiUrl) = some base ∧
        Sends ((Config.forApi {} Config.defaultApiUrl).withToken "t") "acme/lib"
          "../../../other/vault/contents/key.sol" request ∧
        ¬Inside base "acme".toList "lib".toList request.url := by
  have hscheme : Url.cutScheme? (Url.clean Config.defaultApiUrl.toList) =
      some ("https".toList, "//api.github.com".toList ++ []) := by decide +kernel
  have hnamed : contentsUrl ((Config.forApi {} Config.defaultApiUrl).withToken "t") "acme/lib"
      "../../../other/vault/contents/key.sol" = .ok
        "https://api.github.com/repos/acme/lib/contents/../../../other/vault/contents/key.sol" := by
    decide +kernel
  have hother : Url.cutScheme? (Url.clean <| String.toList
        "https://api.github.com/repos/acme/lib/contents/../../../other/vault/contents/key.sol") =
      some ("https".toList, "//api.github.com".toList ++
        "/repos/acme/lib/contents/../../../other/vault/contents/key.sol".toList) := by
    decide +kernel
  have hbase := parse?_defaultHost hscheme rfl
  refine ⟨⟨⟨_, hbase, rfl, rfl⟩, by decide +kernel⟩, by decide +kernel, _, _, hbase,
    sends_of_contentsUrl hnamed (parse?_defaultHost hother rfl) (by decide), ?_⟩
  unfold Inside
  decide +kernel

end CompilerDriver.Github
