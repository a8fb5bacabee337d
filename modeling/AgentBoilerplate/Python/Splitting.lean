import AgentBoilerplate.Python.Casing
import Mathlib.Data.List.TakeDrop

namespace AgentBoilerplate.Python.UrlParse

-- What `urlsplit` finds in a text, and that it finds the parts again in a text
-- that `urlunsplit` wrote.

def blanks : List Char := ['\t', '\r', '\n']

section

variable [Unicode]

-- The checks on the text between the scheme and the path.
def acceptNetloc (netloc : List Char) : Except PyException Unit :=
  if ('[' ∈ netloc) ≠ (']' ∈ netloc) then
    .error (valueError "Invalid IPv6 URL")
  else do
    if '[' ∈ netloc then
      checkBracketedNetloc netloc
    checkNetloc netloc

def splitRest (rest : List Char) : List Char × List Char :=
  if rest.take 2 = ['/', '/'] then splitNetloc (rest.drop 2) else ([], rest)

def pathAndQuery (rest : List Char) : List Char × Bool × List Char :=
  Str.partition '?' (Str.partition '#' rest).1

theorem urlsplit_eq (url : List Char) :
    urlsplit url =
      let (scheme, rest) := splitScheme (Str.remove blanks (url.dropWhile isC0ControlOrSpace))
      let (netloc, tail) := splitRest rest
      (acceptNetloc netloc).map fun _ =>
        ⟨scheme, netloc, (pathAndQuery tail).1, (pathAndQuery tail).2.2,
          (Str.partition '#' tail).2.2⟩ := by
  have hremove : Str.remove ['\t', '\r', '\n'] = Str.remove blanks := rfl
  unfold urlsplit
  rw [hremove]
  dsimp only
  generalize splitScheme (Str.remove blanks (url.dropWhile isC0ControlOrSpace)) = split
  obtain ⟨scheme, rest⟩ := split
  have hrest : (if rest.take 2 = ['/', '/'] then splitNetloc (rest.drop 2) else ([], rest)) =
    splitRest rest := rfl
  dsimp only
  rw [hrest]
  generalize splitRest rest = split
  obtain ⟨netloc, tail⟩ := split
  dsimp only
  unfold acceptNetloc
  by_cases hpaired : ('[' ∈ netloc) ≠ (']' ∈ netloc)
  · rw [if_pos hpaired, if_pos hpaired]
    rfl
  · rw [if_neg hpaired, if_neg hpaired]
    by_cases hopen : '[' ∈ netloc
    · rw [if_pos hopen, if_pos hopen]
      cases checkBracketedNetloc netloc with
      | error e => rfl
      | ok u => cases checkNetloc netloc <;> rfl
    · rw [if_neg hopen, if_neg hopen]
      cases checkNetloc netloc <;> rfl

def IsScheme (scheme : List Char) : Prop :=
  (scheme.head?.map isAlpha).getD false ∧ scheme.all isSchemeChar

-- What holds of the parts of every text that is split.
structure IsSplit (parts : SplitResult) : Prop where
  scheme : parts.scheme = [] ∨ ∃ scheme, IsScheme scheme ∧ parts.scheme = Unicode.lower scheme
  netloc : ∀ c ∈ parts.netloc, c ∉ ['/', '?', '#'] ∧ c ∉ blanks
  accepted : acceptNetloc parts.netloc = .ok ()
  rooted : parts.netloc ≠ [] → parts.path = [] ∨ ∃ rest, parts.path = '/' :: rest
  path : ∀ c ∈ parts.path, c ∉ ['?', '#'] ∧ c ∉ blanks

end

theorem mem_remove {old s : List Char} {c : Char} : c ∈ Str.remove old s ↔ c ∈ s ∧ c ∉ old := by
  unfold Str.remove
  rw [List.mem_filter, decide_eq_true_eq]

theorem remove_eq_self {old s : List Char} (h : ∀ c ∈ s, c ∉ old) : Str.remove old s = s := by
  unfold Str.remove
  exact List.filter_eq_self.mpr fun c hc => decide_eq_true (h c hc)

theorem splitScheme_cases [Unicode] (url : List Char) :
    (splitScheme url = ([], url)) ∨ ∃ scheme rest, IsScheme scheme ∧
      url = scheme ++ ':' :: rest ∧ splitScheme url = (Unicode.lower scheme, rest) := by
  obtain ⟨_, heq⟩ | ⟨scheme, rest, hurl, _, heq⟩ := Str.partition_cases ':' url
  · refine Or.inl ?_
    unfold splitScheme
    rw [heq]
    dsimp only
    rw [if_neg fun h => Bool.false_ne_true h.1]
  · by_cases hscheme : IsScheme scheme
    · refine Or.inr ⟨scheme, rest, hscheme, hurl, ?_⟩
      unfold splitScheme
      rw [heq]
      exact if_pos ⟨rfl, hscheme⟩
    · refine Or.inl ?_
      unfold splitScheme
      rw [heq]
      exact if_neg fun h => hscheme h.2

section

variable {netloc tail : List Char}

def isNetloc (c : Char) : Bool := c ∉ ['/', '?', '#']

theorem isNetloc_iff {c : Char} : isNetloc c ↔ c ∉ ['/', '?', '#'] := decide_eq_true_iff

-- The text after the host starts with a delimiter.
def Ended (tail : List Char) : Prop := tail = [] ∨ ∃ c rest, tail = c :: rest ∧ isNetloc c = false

theorem splitNetloc_eq (url : List Char) :
    splitNetloc url = (url.takeWhile isNetloc, url.dropWhile isNetloc) :=
  List.span_eq_takeWhile_dropWhile isNetloc url

theorem splitNetloc_append (hnetloc : ∀ c ∈ netloc, isNetloc c) (htail : Ended tail) :
    splitNetloc (netloc ++ tail) = (netloc, tail) := by
  rw [splitNetloc_eq, List.takeWhile_append_of_pos hnetloc, List.dropWhile_append_of_pos hnetloc]
  obtain rfl | ⟨c, rest, rfl, hc⟩ := htail
  · rw [List.takeWhile_nil, List.append_nil, List.dropWhile_nil]
  · have hneg : ¬ isNetloc c := by rw [hc]; exact Bool.false_ne_true
    rw [List.takeWhile_cons_of_neg hneg, List.dropWhile_cons_of_neg hneg, List.append_nil]

theorem ended_dropWhile (url : List Char) : Ended (url.dropWhile isNetloc) := by
  cases hdrop : url.dropWhile isNetloc with
  | nil => exact Or.inl rfl
  | cons c rest =>
    refine Or.inr ⟨c, rest, rfl, ?_⟩
    have hne : url.dropWhile isNetloc ≠ [] := by
      rw [hdrop]
      exact List.cons_ne_nil c rest
    have hhead := List.head_dropWhile_not isNetloc hne
    simpa only [hdrop, List.head_cons] using hhead

theorem splitNetloc_spec (url : List Char) : ∃ netloc tail, url = netloc ++ tail ∧
    (∀ c ∈ netloc, isNetloc c) ∧ Ended tail ∧ splitNetloc url = (netloc, tail) :=
  ⟨_, _, List.takeWhile_append_dropWhile.symm, fun _ hc => List.mem_takeWhile_imp hc,
    ended_dropWhile url, splitNetloc_eq url⟩

end

theorem splitRest_spec (rest : List Char) : ∃ netloc tail, splitRest rest = (netloc, tail) ∧
    (∀ c ∈ netloc, c ∈ rest ∧ isNetloc c) ∧ (∀ c ∈ tail, c ∈ rest) ∧
    (netloc ≠ [] → Ended tail) := by
  unfold splitRest
  split
  · obtain ⟨netloc, tail, hrest, hnetloc, hended, heq⟩ := splitNetloc_spec (rest.drop 2)
    refine ⟨netloc, tail, heq, fun c hc => ⟨?_, hnetloc c hc⟩, fun c hc => ?_, fun _ => hended⟩
    · exact List.mem_of_mem_drop (hrest ▸ List.mem_append_left _ hc)
    · exact List.mem_of_mem_drop (hrest ▸ List.mem_append_right _ hc)
  · exact ⟨[], rest, rfl, fun c hc => absurd hc List.not_mem_nil, fun c hc => hc,
      fun h => absurd rfl h⟩

theorem pathAndQuery_rooted {tail : List Char} (h : Ended tail) :
    (pathAndQuery tail).1 = [] ∨ ∃ rest, (pathAndQuery tail).1 = '/' :: rest := by
  obtain rfl | ⟨c, rest, rfl, hc⟩ := h
  · exact Or.inl rfl
  · have hdelimiter : c = '/' ∨ c = '?' ∨ c = '#' := by
      simpa using Decidable.not_not.mp (of_decide_eq_false hc)
    unfold pathAndQuery
    obtain rfl | rfl | rfl := hdelimiter
    · refine Or.inr ⟨(Str.partition '?' (Str.partition '#' rest).1).1, ?_⟩
      conv_lhs => rw [Str.partition, if_neg (by decide), Str.partition, if_neg (by decide)]
    · refine Or.inl ?_
      conv_lhs => rw [Str.partition, if_neg (by decide), Str.partition, if_pos rfl]
    · refine Or.inl ?_
      conv_lhs => rw [Str.partition, if_pos rfl]
      rfl

theorem mem_pathAndQuery {tail : List Char} {c : Char} (h : c ∈ (pathAndQuery tail).1) :
    c ∈ tail ∧ c ∉ ['?', '#'] := by
  unfold pathAndQuery at h
  have hhash := Str.mem_of_mem_before h
  have hnotHash : c ≠ '#' := by
    rintro rfl
    exact Str.notMem_before _ _ hhash
  have hnotMark : c ≠ '?' := by
    rintro rfl
    exact Str.notMem_before _ _ h
  exact ⟨Str.mem_of_mem_before hhash, by simp [hnotHash, hnotMark]⟩

theorem urlsplit_isSplit [Unicode] {url : List Char} {parts : SplitResult}
    (h : urlsplit url = .ok parts) : IsSplit parts := by
  rw [urlsplit_eq] at h
  have hclean : ∀ c ∈ Str.remove blanks (url.dropWhile isC0ControlOrSpace), c ∉ blanks :=
    fun c hc => (mem_remove.mp hc).2
  generalize Str.remove blanks (url.dropWhile isC0ControlOrSpace) = clean at h hclean
  obtain ⟨scheme, rest, hsplit, hscheme, hrest⟩ : ∃ scheme rest,
      splitScheme clean = (scheme, rest) ∧
      (scheme = [] ∨ ∃ text, IsScheme text ∧ scheme = Unicode.lower text) ∧
      ∀ c ∈ rest, c ∉ blanks := by
    obtain heq | ⟨text, rest, htext, rfl, heq⟩ := splitScheme_cases clean
    · exact ⟨[], clean, heq, Or.inl rfl, hclean⟩
    · refine ⟨_, rest, heq, Or.inr ⟨text, htext, rfl⟩, fun c hc => hclean c ?_⟩
      exact List.mem_append_right _ (List.mem_cons_of_mem _ hc)
  obtain ⟨netloc, tail, heq, hnetloc, htail, hended⟩ := splitRest_spec rest
  rw [hsplit] at h
  dsimp only at h
  rw [heq] at h
  dsimp only at h
  cases haccept : acceptNetloc netloc with
  | error e =>
    rw [haccept] at h
    cases h
  | ok u =>
    rw [haccept] at h
    cases h
    refine ⟨hscheme, fun c hc => ⟨isNetloc_iff.mp (hnetloc c hc).2, hrest c (hnetloc c hc).1⟩, haccept,
      fun hne => pathAndQuery_rooted (hended hne), fun c hc => ?_⟩
    obtain ⟨hmem, hchar⟩ := mem_pathAndQuery hc
    exact ⟨hchar, hrest c (htail c hmem)⟩

theorem isAlpha_cases {c : Char} (h : isAlpha c) : 0x41 ≤ c.val.toNat ∧ c.val.toNat ≤ 0x7A := by
  unfold isAlpha at h
  obtain ⟨hlow, hhigh⟩ | ⟨hlow, hhigh⟩ := of_decide_eq_true h
  · have hlow : 0x61 ≤ c.val.toNat := UInt32.le_iff_toNat_le.mp hlow
    have hhigh : c.val.toNat ≤ 0x7A := UInt32.le_iff_toNat_le.mp hhigh
    omega
  · have hlow : 0x41 ≤ c.val.toNat := UInt32.le_iff_toNat_le.mp hlow
    have hhigh : c.val.toNat ≤ 0x5A := UInt32.le_iff_toNat_le.mp hhigh
    omega

-- A scheme is a letter and more.
theorem IsScheme.cons {scheme : List Char} (h : IsScheme scheme) :
    ∃ c rest, scheme = c :: rest ∧ isAlpha c := by
  obtain ⟨hhead, _⟩ := h
  cases scheme with
  | nil => exact absurd hhead Bool.false_ne_true
  | cons c rest => exact ⟨c, rest, rfl, hhead⟩

theorem IsScheme.notMem {scheme : List Char} (h : IsScheme scheme) {c : Char}
    (hc : isSchemeChar c = false) : c ∉ scheme := by
  intro hmem
  have hscheme := List.all_eq_true.mp h.2 c hmem
  rw [hc] at hscheme
  cases hscheme

-- Parts that are read again as they are printed.
structure Printable (scheme netloc path query : List Char) : Prop where
  scheme : IsScheme scheme
  netloc : ∀ c ∈ netloc, isNetloc c ∧ c ∉ blanks
  rooted : path = [] ∨ ∃ rest, path = '/' :: rest
  path : ∀ c ∈ path, c ∉ ['?', '#'] ∧ c ∉ blanks
  query : ∀ c ∈ query, c ≠ '#' ∧ c ∉ blanks

def asked (query : List Char) : List Char := if query = [] then [] else '?' :: query

section

variable {scheme netloc path query : List Char}

theorem urlunsplit_eq (h : path = [] ∨ ∃ rest, path = '/' :: rest) :
    urlunsplit scheme netloc path query =
      scheme ++ ':' :: '/' :: '/' :: (netloc ++ (path ++ asked query)) := by
  have hpath : (if path ≠ [] ∧ path.head? ≠ some '/' then '/' :: path else path) = path := by
    obtain rfl | ⟨rest, rfl⟩ := h
    · rfl
    · exact if_neg fun h => h.2 rfl
  unfold urlunsplit asked
  rw [hpath]
  split
  · simp
  · simp

theorem ended_asked (query : List Char) : Ended (asked query) := by
  unfold asked
  split
  · exact Or.inl rfl
  · exact Or.inr ⟨'?', query, rfl, rfl⟩

theorem Printable.ended (h : Printable scheme netloc path query) : Ended (path ++ asked query) := by
  obtain rfl | ⟨rest, rfl⟩ := h.rooted
  · exact ended_asked query
  · exact Or.inr ⟨'/', rest ++ asked query, rfl, rfl⟩

theorem Printable.notMem_path (h : Printable scheme netloc path query) :
    '?' ∉ path ∧ '#' ∉ path := by
  constructor
  · intro hmem
    exact (h.path _ hmem).1 (by decide)
  · intro hmem
    exact (h.path _ hmem).1 (by decide)

theorem mem_asked {c : Char} (h : c ∈ asked query) : c = '?' ∨ c ∈ query := by
  unfold asked at h
  split at h
  · exact absurd h List.not_mem_nil
  · exact List.mem_cons.mp h

theorem partition_asked (query : List Char) (h : '?' ∉ path) :
    (Str.partition '?' (path ++ asked query)).1 = path ∧
      (Str.partition '?' (path ++ asked query)).2.2 = query := by
  unfold asked
  split
  case isTrue hquery =>
    rw [List.append_nil, Str.partition_of_notMem h, hquery]
    exact ⟨rfl, rfl⟩
  case isFalse =>
    rw [Str.partition_append h]
    exact ⟨rfl, rfl⟩

theorem Printable.pathAndQuery (h : Printable scheme netloc path query) :
    (UrlParse.pathAndQuery (path ++ asked query)).1 = path ∧
      (UrlParse.pathAndQuery (path ++ asked query)).2.2 = query ∧
      (Str.partition '#' (path ++ asked query)).2.2 = [] := by
  have hhash : '#' ∉ path ++ asked query := by
    intro hmem
    obtain hpath | hasked := List.mem_append.mp hmem
    · exact h.notMem_path.2 hpath
    · obtain hmark | hquery := mem_asked hasked
      · exact absurd hmark (by decide)
      · exact (h.query _ hquery).1 rfl
  obtain ⟨hpath, hquery⟩ := partition_asked query h.notMem_path.1
  unfold UrlParse.pathAndQuery
  rw [Str.partition_of_notMem hhash]
  exact ⟨hpath, hquery, rfl⟩

theorem splitScheme_append [Unicode] (h : IsScheme scheme) (rest : List Char) :
    splitScheme (scheme ++ ':' :: rest) = (Unicode.lower scheme, rest) := by
  unfold splitScheme
  rw [Str.partition_append (h.notMem (by decide))]
  exact if_pos ⟨rfl, h⟩

theorem IsScheme.notMem_blanks (h : IsScheme scheme) : ∀ c ∈ scheme, c ∉ blanks := by
  intro c hc hblank
  have hnot : ∀ c ∈ blanks, isSchemeChar c = false := Str.forall_of_all (by decide)
  exact h.notMem (hnot c hblank) hc

-- The text has nothing that is removed before it is split.
theorem Printable.clean (h : Printable scheme netloc path query) :
    Str.remove blanks ((urlunsplit scheme netloc path query).dropWhile isC0ControlOrSpace) =
      scheme ++ ':' :: '/' :: '/' :: (netloc ++ (path ++ asked query)) := by
  have hdrop : ∀ rest, (scheme ++ rest).dropWhile isC0ControlOrSpace = scheme ++ rest := by
    intro rest
    obtain ⟨c, tail, rfl, hc⟩ := h.scheme.cons
    refine List.dropWhile_cons_of_neg ?_
    have hlow := (isAlpha_cases hc).1
    intro hcontrol
    have hle : c.val.toNat ≤ 0x20 := UInt32.le_iff_toNat_le.mp (of_decide_eq_true hcontrol)
    omega
  rw [urlunsplit_eq h.rooted, hdrop]
  apply remove_eq_self
  intro c hc
  simp only [List.mem_append, List.mem_cons] at hc
  have hnot : ∀ c ∈ blanks, c ≠ ':' ∧ c ≠ '/' ∧ c ≠ '?' := Str.forall_of_all (by decide)
  obtain hc | hc | hc | hc | hc | hc | hc := hc
  · exact h.scheme.notMem_blanks c hc
  · exact fun hblank => (hnot c hblank).1 hc
  · exact fun hblank => (hnot c hblank).2.1 hc
  · exact fun hblank => (hnot c hblank).2.1 hc
  · exact (h.netloc c hc).2
  · exact (h.path c hc).2
  · obtain hmark | hquery := mem_asked hc
    · exact fun hblank => (hnot c hblank).2.2 hmark
    · exact (h.query c hquery).2

-- What was printed is split into the parts again, if the host is accepted.
theorem urlsplit_urlunsplit [Unicode] (h : Printable scheme netloc path query)
    (hlowered : Unicode.lower scheme = scheme) :
    urlsplit (urlunsplit scheme netloc path query) =
      (acceptNetloc netloc).map fun _ => ⟨scheme, netloc, path, query, []⟩ := by
  have hrest : splitRest ('/' :: '/' :: (netloc ++ (path ++ asked query))) =
      (netloc, path ++ asked query) :=
    (if_pos rfl).trans (splitNetloc_append (fun c hc => (h.netloc c hc).1) h.ended)
  obtain ⟨hpath, hquery, hfragment⟩ := h.pathAndQuery
  rw [urlsplit_eq, h.clean, splitScheme_append h.scheme, hlowered]
  dsimp only
  rw [hrest]
  dsimp only
  rw [hpath, hquery, hfragment]

-- Equal texts are printed of equal parts.
theorem urlunsplit_inj {scheme' netloc' path' query' : List Char}
    (h : Printable scheme netloc path query) (h' : Printable scheme' netloc' path' query') :
    urlunsplit scheme netloc path query = urlunsplit scheme' netloc' path' query' ↔
      scheme = scheme' ∧ netloc = netloc' ∧ path = path' ∧ query = query' := by
  constructor
  · intro heq
    rw [urlunsplit_eq h.rooted, urlunsplit_eq h'.rooted] at heq
    have hscheme := congrArg (Str.partition ':') heq
    rw [Str.partition_append (h.scheme.notMem (by decide)),
      Str.partition_append (h'.scheme.notMem (by decide))] at hscheme
    injection hscheme with hscheme htail
    injection htail with _ htail
    simp only [List.cons.injEq, true_and] at htail
    have hnetloc := congrArg splitNetloc htail
    rw [splitNetloc_append (fun c hc => (h.netloc c hc).1) h.ended,
      splitNetloc_append (fun c hc => (h'.netloc c hc).1) h'.ended] at hnetloc
    injection hnetloc with hnetloc htail
    obtain ⟨hpath, hquery⟩ := partition_asked query h.notMem_path.1
    obtain ⟨hpath', hquery'⟩ := partition_asked query' h'.notMem_path.1
    rw [htail] at hpath hquery
    exact ⟨hscheme, hnetloc, hpath.symm.trans hpath', hquery.symm.trans hquery'⟩
  · rintro ⟨rfl, rfl, rfl, rfl⟩
    rfl

end

section

variable {p : Char → Bool} {s t : List Char} {c : Char}

-- A character that stays keeps all that is before it.
theorem rdropWhile_append_cons (hc : p c = false) :
    (s ++ c :: t).rdropWhile p = s ++ c :: t.rdropWhile p := by
  induction t using List.reverseRecOn with
  | nil =>
    rw [List.rdropWhile_nil]
    exact List.rdropWhile_concat_neg _ _ _ (by rw [hc]; exact Bool.false_ne_true)
  | append_singleton t d ih =>
    have hassoc : s ++ c :: (t ++ [d]) = (s ++ c :: t) ++ [d] := by simp
    rw [hassoc]
    by_cases hd : p d
    · rw [List.rdropWhile_concat_pos _ _ _ hd, List.rdropWhile_concat_pos _ _ _ hd, ih]
    · rw [List.rdropWhile_concat_neg _ _ _ hd, List.rdropWhile_concat_neg _ _ _ hd, hassoc]

theorem rdropWhile_of_last (h : ∀ c ∈ s.getLast?, p c = false) : s.rdropWhile p = s := by
  rw [List.rdropWhile_eq_self_iff]
  intro hne hlast
  have hmem : s.getLast hne ∈ s.getLast? := List.getLast?_eq_some_getLast hne
  rw [h _ hmem] at hlast
  cases hlast

end

section

variable {scheme netloc path query : List Char}

theorem IsScheme.strip_append (h : IsScheme scheme) (rest : List Char) :
    Str.strip Str.isSpace (scheme ++ ':' :: '/' :: '/' :: rest) =
      scheme ++ ':' :: '/' :: '/' :: rest.rdropWhile Str.isSpace := by
  obtain ⟨c, tail, rfl, hc⟩ := h.cons
  have hletter : ¬ Str.isSpace c := by
    obtain ⟨hlow, hhigh⟩ := isAlpha_cases hc
    intro hspace
    have hcases := of_decide_eq_true hspace
    simp only [UInt32.le_iff_toNat_le, ← UInt32.toNat_inj, UInt32.reduceToNat] at hcases
    omega
  have hassoc : (c :: tail) ++ ':' :: '/' :: '/' :: rest =
      ((c :: tail) ++ [':', '/']) ++ '/' :: rest := by simp
  unfold Str.strip
  rw [List.cons_append, List.dropWhile_cons_of_neg hletter, ← List.cons_append, hassoc,
    rdropWhile_append_cons rfl]
  simp

theorem strip_asked (h : Printable scheme netloc path query) (hquery : query ≠ [])
    (hspace : ∀ c ∈ query, Str.isSpace c = false) :
    Str.strip Str.isSpace (urlunsplit scheme netloc path query) =
      urlunsplit scheme netloc path query := by
  have hlast : query.rdropWhile Str.isSpace = query :=
    rdropWhile_of_last fun c hc => hspace c (List.mem_of_getLast? hc)
  have hmark : ('?' :: query).rdropWhile Str.isSpace = '?' :: query := by
    have happend := rdropWhile_append_cons (p := Str.isSpace) (s := []) (c := '?') (t := query) rfl
    rwa [List.nil_append, hlast] at happend
  rw [urlunsplit_eq h.rooted, h.scheme.strip_append]
  unfold asked
  rw [if_neg hquery, ← List.append_assoc, rdropWhile_append_cons rfl, hlast]

theorem strip_rooted {rest : List Char} (h : Printable scheme netloc ('/' :: rest) []) :
    Str.strip Str.isSpace (urlunsplit scheme netloc ('/' :: rest) []) =
      urlunsplit scheme netloc ('/' :: rest.rdropWhile Str.isSpace) [] := by
  rw [urlunsplit_eq h.rooted, urlunsplit_eq (Or.inr ⟨_, rfl⟩), h.scheme.strip_append]
  change _ ++ ':' :: '/' :: '/' :: (netloc ++ (('/' :: rest) ++ [])).rdropWhile _ = _
  rw [List.append_nil, rdropWhile_append_cons rfl]
  change _ = _ ++ ':' :: '/' :: '/' :: (netloc ++ (('/' :: _) ++ []))
  rw [List.append_nil]

theorem strip_hosted (h : Printable scheme netloc [] []) :
    Str.strip Str.isSpace (urlunsplit scheme netloc [] []) =
      urlunsplit scheme (netloc.rdropWhile Str.isSpace) [] [] := by
  rw [urlunsplit_eq h.rooted, urlunsplit_eq (Or.inl rfl), h.scheme.strip_append]
  change _ ++ ':' :: '/' :: '/' :: (netloc ++ []).rdropWhile _ =
    _ ++ ':' :: '/' :: '/' :: (netloc.rdropWhile _ ++ [])
  rw [List.append_nil, List.append_nil]

end

section

variable [Unicode] [Unicode.Lawful] {netloc : List Char}

-- A host is accepted unless a character of it spills.
theorem checkNetloc_iff (hslash : '/' ∉ netloc) :
    checkNetloc netloc = .ok () ↔ ∀ c ∈ netloc, c ∉ delimiters → ¬ Unicode.Spills c := by
  have hremoved : ∀ c, c ∈ Str.remove ['@', ':', '#', '?'] netloc ↔ c ∈ netloc ∧ c ∉ delimiters := by
    intro c
    rw [mem_remove]
    constructor
    · rintro ⟨hmem, hc⟩
      refine ⟨hmem, fun hdelimiter => hc ?_⟩
      have hne : c ≠ '/' := fun heq => hslash (heq ▸ hmem)
      revert hdelimiter
      unfold delimiters
      simp only [List.mem_cons, List.not_mem_nil, or_false]
      tauto
    · rintro ⟨hmem, hc⟩
      have hsub : ∀ d ∈ ['@', ':', '#', '?'], d ∈ delimiters := Str.forall_of_all (by decide)
      exact ⟨hmem, fun hkept => hc (hsub c hkept)⟩
  unfold checkNetloc
  dsimp only
  constructor
  · intro h c hc hdelimiter hspills
    obtain ⟨d, hd, hspilled⟩ := Unicode.Lawful.nfkc_of_spills _ c ((hremoved c).mpr ⟨hc, hdelimiter⟩)
      hspills
    have hsame : ¬ (netloc.all Str.isAscii ∨ Str.remove ['@', ':', '#', '?'] netloc =
        Unicode.nfkc (Str.remove ['@', ':', '#', '?'] netloc)) := by
      rintro (hascii | heq)
      · exact hdelimiter ((Unicode.spills_ascii (List.all_eq_true.mp hascii c hc)).mp hspills)
      · rw [← heq] at hd
        exact ((hremoved d).mp hd).2 hspilled
    have hany : (['/', '?', '#', '@', ':'].any fun c =>
        c ∈ Unicode.nfkc (Str.remove ['@', ':', '#', '?'] netloc)) = true :=
      List.any_eq_true.mpr ⟨d, hspilled, decide_eq_true hd⟩
    rw [if_neg hsame, if_pos hany] at h
    cases h
  · intro h
    split
    · rfl
    · rw [if_neg]
      intro hany
      obtain ⟨d, hdelimiter, hd⟩ := List.any_eq_true.mp hany
      refine Unicode.notMem_nfkc ?_ d hdelimiter (of_decide_eq_true hd)
      intro c hc
      exact h c ((hremoved c).mp hc).1 ((hremoved c).mp hc).2

omit [Unicode.Lawful] in
theorem acceptNetloc_open (h : ('[' ∈ netloc) ≠ (']' ∈ netloc)) :
    ∃ e, acceptNetloc netloc = .error e := ⟨_, if_pos h⟩

omit [Unicode.Lawful] in
theorem acceptNetloc_plain (h : '[' ∉ netloc ∧ ']' ∉ netloc) :
    acceptNetloc netloc = checkNetloc netloc := by
  unfold acceptNetloc
  have hpaired : ¬ (('[' ∈ netloc) ≠ (']' ∈ netloc)) := by simp [h.1, h.2]
  rw [if_neg hpaired, if_neg h.1]

omit [Unicode.Lawful] in
theorem checkNetloc_of_accept (h : acceptNetloc netloc = .ok ()) : checkNetloc netloc = .ok () := by
  unfold acceptNetloc at h
  split at h
  · cases h
  · split at h
    · cases hbracket : checkBracketedNetloc netloc with
      | error e =>
        rw [hbracket] at h
        cases h
      | ok u =>
        rw [hbracket] at h
        exact h
    · exact h

end

namespace SplitResult

section

variable {parts : SplitResult} {c : Char}

-- The host is read after the user, and has at most an opening bracket or a
-- closing one.
theorem hostinfo_spec (parts : SplitResult) : (∀ c ∈ parts.hostinfo.1, c ∈ parts.netloc) ∧
    '@' ∉ parts.hostinfo.1 ∧ ¬ ('[' ∈ parts.hostinfo.1 ∧ ']' ∈ parts.hostinfo.1) := by
  obtain ⟨hostinfo, heq, hmem, hat⟩ : ∃ hostinfo, (Str.rpartition '@' parts.netloc).2.2 = hostinfo ∧
      (∀ c ∈ hostinfo, c ∈ parts.netloc) ∧ '@' ∉ hostinfo := by
    obtain ⟨h, heq⟩ | ⟨user, host, hnetloc, h, heq⟩ := Str.rpartition_cases '@' parts.netloc
    · exact ⟨_, congrArg (·.2.2) heq, fun c hc => hc, h⟩
    · refine ⟨host, congrArg (·.2.2) heq, fun c hc => ?_, h⟩
      rw [hnetloc]
      exact List.mem_append_right _ (List.mem_cons_of_mem _ hc)
  have hopen := Str.partition_cases '[' hostinfo
  unfold SplitResult.hostinfo
  dsimp only
  rw [heq]
  obtain ⟨hnone, hfound⟩ | ⟨before, after, hinfo, _, hfound⟩ := hopen
  · rw [hfound]
    dsimp only
    rw [if_neg Bool.false_ne_true]
    exact ⟨fun c hc => hmem c (Str.mem_of_mem_before hc), fun h => hat (Str.mem_of_mem_before h),
      fun h => hnone (Str.mem_of_mem_before h.1)⟩
  · have hafter : ∀ c ∈ after, c ∈ hostinfo := by
      intro c hc
      rw [hinfo]
      exact List.mem_append_right _ (List.mem_cons_of_mem _ hc)
    rw [hfound]
    dsimp only
    rw [if_pos rfl]
    exact ⟨fun c hc => hmem c (hafter c (Str.mem_of_mem_before hc)),
      fun h => hat (hafter _ (Str.mem_of_mem_before h)), fun h => Str.notMem_before _ _ h.2⟩

-- A host without user and brackets.
theorem hostinfo_plain (hat : '@' ∉ parts.netloc) (hopen : '[' ∉ parts.netloc) :
    parts.hostinfo = ((Str.partition ':' parts.netloc).1,
      if (Str.partition ':' parts.netloc).2.2 = [] then none
      else some (Str.partition ':' parts.netloc).2.2) := by
  unfold SplitResult.hostinfo
  rw [Str.rpartition_of_notMem hat]
  dsimp only
  rw [Str.partition_of_notMem hopen]
  rfl

variable [Unicode] [Unicode.Lawful] {host : List Char}

theorem hostname_some (h : parts.hostname = some host) : parts.hostinfo.1 ≠ [] ∧
    ∀ c ∈ host, ∃ c' ∈ parts.hostinfo.1, c' = c ∨ ∃ piece, Unicode.Lowers c' piece ∧ c ∈ piece := by
  unfold hostname at h
  dsimp only at h
  split at h
  case isTrue => cases h
  case isFalse hne =>
    refine ⟨hne, ?_⟩
    cases h
    intro c hc
    have hparts := Str.partition_cases '%' parts.hostinfo.1
    obtain (hlower | hpercent) | hzone := (List.mem_append.mp hc).imp_left List.mem_append.mp
    · obtain ⟨c', hmem, found⟩ := (Unicode.lowersTo_lower _).mem hlower
      exact ⟨c', Str.mem_of_mem_before hmem, Or.inr found⟩
    · obtain ⟨_, hfound⟩ | ⟨before, after, hinfo, _, hfound⟩ := hparts
      · rw [hfound] at hpercent
        exact absurd hpercent List.not_mem_nil
      · rw [hfound] at hpercent
        refine ⟨c, ?_, Or.inl rfl⟩
        rw [hinfo, List.mem_singleton.mp hpercent]
        exact List.mem_append_right _ List.mem_cons_self
    · exact ⟨c, Str.mem_of_mem_after hzone, Or.inl rfl⟩

theorem hostname_ne_nil (h : parts.hostname = some host) : host ≠ [] := by
  have hne := (hostname_some h).1
  unfold hostname at h
  dsimp only at h
  rw [if_neg hne] at h
  cases h
  obtain ⟨_, heq⟩ | ⟨before, after, _, _, heq⟩ := Str.partition_cases '%' parts.hostinfo.1
  · rw [heq]
    have hlower := (Unicode.lowersTo_lower parts.hostinfo.1).ne_nil hne
    simp [hlower]
  · rw [heq]
    simp

end

end SplitResult

end AgentBoilerplate.Python.UrlParse
