import AgentBoilerplate.Agent.Lemmas
import AgentBoilerplate.Python.Splitting

namespace AgentBoilerplate.Agent

open Python UrlParse

-- The order of the fields of a query.
def fieldLe (a b : List Char × List Char) : Prop := Str.pairLe a b = true

instance : DecidableRel fieldLe := fun a b => inferInstanceAs (Decidable (Str.pairLe a b = true))

instance : Std.Total fieldLe where
  total a b := by
    unfold fieldLe Str.pairLe
    by_cases h : a.1 = b.1
    · rw [if_pos h, if_pos h.symm]
      exact Str.le_total a.2 b.2
    · rw [if_neg h, if_neg (Ne.symm h)]
      exact Str.le_total a.1 b.1

instance : IsTrans (List Char × List Char) fieldLe where
  trans a b c := by
    unfold fieldLe Str.pairLe
    intro hab hbc
    by_cases h₁ : a.1 = b.1
    · rw [if_pos h₁] at hab
      rw [← h₁] at hbc
      by_cases h₂ : a.1 = c.1
      · rw [if_pos h₂] at hbc ⊢
        exact Str.le_trans _ _ _ hab hbc
      · rw [if_neg h₂] at hbc ⊢
        exact hbc
    · rw [if_neg h₁] at hab
      by_cases h₂ : b.1 = c.1
      · rw [← h₂, if_neg h₁]
        exact hab
      · rw [if_neg h₂] at hbc
        have hac : a.1 ≠ c.1 := by
          intro heq
          rw [← heq] at hbc
          exact h₁ (Str.le_antisymm _ _ hab hbc)
        rw [if_neg hac]
        exact Str.le_trans _ _ _ hab hbc

instance : Std.Antisymm fieldLe where
  antisymm a b hab hba := by
    unfold fieldLe Str.pairLe at hab hba
    by_cases h : a.1 = b.1
    · rw [if_pos h] at hab
      rw [if_pos h.symm] at hba
      exact Prod.ext h (Str.le_antisymm _ _ hab hba)
    · rw [if_neg h] at hab
      rw [if_neg (Ne.symm h)] at hba
      exact absurd (Str.le_antisymm _ _ hab hba) h

section

variable [Unicode]

-- The fields of a query that are not about campaigns.
def keptFields (query : List Char) : List (List Char × List Char) :=
  (parseQsl query).filter fun field => ¬ isTracking field.1

theorem canonicalQuery_eq (query : List Char) :
    canonicalQuery query = urlencode ((keptFields query).insertionSort fieldLe) := rfl

theorem canonicalQuery_eq_iff {query query' : List Char} :
    canonicalQuery query = canonicalQuery query' ↔ (keptFields query).Perm (keptFields query') := by
  rw [canonicalQuery_eq, canonicalQuery_eq, urlencode_injective.eq_iff]
  constructor
  · intro h
    have hperm := List.perm_insertionSort fieldLe (keptFields query)
    rw [h] at hperm
    exact hperm.symm.trans (List.perm_insertionSort fieldLe _)
  · intro h
    have hperm := ((List.perm_insertionSort fieldLe _).trans h).trans
      (List.perm_insertionSort fieldLe (keptFields query')).symm
    exact hperm.eq_of_pairwise' (List.pairwise_insertionSort _ _) (List.pairwise_insertionSort _ _)

theorem canonicalQuery_eq_nil {query : List Char} :
    canonicalQuery query = [] ↔ keptFields query = [] := by
  rw [canonicalQuery_eq, urlencode_eq_nil, ← List.length_eq_zero_iff, List.length_insertionSort,
    List.length_eq_zero_iff]

-- The fields that are written are kept again.
theorem keptFields_canonicalQuery (query : List Char) :
    (keptFields (canonicalQuery query)).Perm (keptFields query) := by
  have hkept : keptFields (canonicalQuery query) = (keptFields query).insertionSort fieldLe := by
    unfold keptFields
    rw [canonicalQuery_eq, parseQsl_urlencode]
    refine List.filter_eq_self.mpr fun field hfield => ?_
    exact (List.mem_filter.mp ((List.mem_insertionSort _).mp hfield)).2
  rw [hkept]
  exact List.perm_insertionSort _ _

theorem canonicalQuery_canonicalQuery (query : List Char) :
    canonicalQuery (canonicalQuery query) = canonicalQuery query :=
  canonicalQuery_eq_iff.mpr (keptFields_canonicalQuery query)

theorem mem_canonicalQuery {query : List Char} {c : Char} (h : c ∈ canonicalQuery query) :
    c ≠ '#' ∧ c ∉ blanks ∧ Str.isSpace c = false := by
  obtain ⟨hlow, hhigh⟩ : 0x25 ≤ c.val.toNat ∧ c.val.toNat ≤ 0x7E := by
    obtain hc | rfl | rfl := mem_urlencode h
    · exact isQuoted_range hc
    · decide
    · decide
  refine ⟨?_, ?_, ?_⟩
  · rintro rfl
    exact absurd hlow (by decide)
  · intro hblank
    have hblanks : ∀ c ∈ blanks, c.val.toNat < 0x25 := Str.forall_of_all (by decide)
    have hlt := hblanks c hblank
    omega
  · refine decide_eq_false ?_
    simp only [UInt32.le_iff_toNat_le, ← UInt32.toNat_inj, UInt32.reduceToNat]
    omega

end

-- Two slashes or more, and nothing else.
def Slashes (path : List Char) : Prop := 2 ≤ path.length ∧ ∀ c ∈ path, c = '/'

instance (path : List Char) : Decidable (Slashes path) :=
  inferInstanceAs (Decidable (2 ≤ path.length ∧ ∀ c ∈ path, c = '/'))

def trimmed (path : List Char) : List Char := path.rdropWhile (· = '/')

theorem trimmed_eq_nil {path : List Char} : trimmed path = [] ↔ ∀ c ∈ path, c = '/' := by
  unfold trimmed
  rw [List.rdropWhile_eq_nil_iff]
  simp only [decide_eq_true_eq]

section

variable {path : List Char}

theorem canonicalPath_slashes (h : Slashes path) : canonicalPath path = [] := by
  have hne : path ≠ [] := by
    rintro rfl
    exact absurd h.1 (by decide)
  have hlast : path.getLast? = some '/' := by
    rw [List.getLast?_eq_some_getLast hne, h.2 _ (List.getLast_mem hne)]
  unfold canonicalPath
  rw [if_neg hne, if_pos ⟨h.1, hlast⟩]
  exact trimmed_eq_nil.mpr h.2

theorem canonicalPath_root (h : ¬ Slashes path) (htrimmed : trimmed path = []) :
    canonicalPath path = ['/'] := by
  have hall := trimmed_eq_nil.mp htrimmed
  have hlength : ¬ 2 ≤ path.length := fun hlength => h ⟨hlength, hall⟩
  unfold canonicalPath
  match path with
  | [] => rfl
  | [c] =>
    rw [hall c List.mem_cons_self]
    rfl
  | _ :: _ :: _ => exact absurd (by simp) hlength

theorem canonicalPath_trimmed (htrimmed : trimmed path ≠ []) : canonicalPath path = trimmed path := by
  have hne : path ≠ [] := by
    rintro rfl
    exact htrimmed rfl
  unfold canonicalPath
  rw [if_neg hne]
  dsimp only
  split
  · rfl
  case isFalse hkept =>
    refine (rdropWhile_of_last fun c hc => ?_).symm
    by_contra hslash
    have heq : c = '/' := of_decide_eq_true ((Bool.not_eq_false _).mp hslash)
    subst heq
    refine hkept ⟨?_, hc⟩
    match path with
    | [] => exact absurd rfl hne
    | [c] =>
      have hc : c = '/' := by simpa using hc
      subst hc
      exact absurd (trimmed_eq_nil.mpr (by simp)) htrimmed
    | _ :: _ :: _ => simp

theorem Slashes.trimmed_eq (h : Slashes path) : trimmed path = [] := trimmed_eq_nil.mpr h.2

theorem trimmed_last (hne : trimmed path ≠ []) : (trimmed path).getLast hne ≠ '/' :=
  fun heq => List.rdropWhile_last_not _ _ hne (decide_eq_true heq)

-- The three shapes of a path that is written.
theorem canonicalPath_cases (path : List Char) :
    (Slashes path ∧ trimmed path = [] ∧ canonicalPath path = []) ∨
      (¬ Slashes path ∧ trimmed path = [] ∧ canonicalPath path = ['/']) ∨
      (¬ Slashes path ∧ trimmed path ≠ [] ∧ trimmed path ≠ ['/'] ∧
        canonicalPath path = trimmed path) := by
  by_cases h : Slashes path
  · exact Or.inl ⟨h, h.trimmed_eq, canonicalPath_slashes h⟩
  · by_cases htrimmed : trimmed path = []
    · exact Or.inr (Or.inl ⟨h, htrimmed, canonicalPath_root h htrimmed⟩)
    · refine Or.inr (Or.inr ⟨h, htrimmed, ?_, canonicalPath_trimmed htrimmed⟩)
      intro heq
      exact trimmed_last htrimmed (by simp [heq])

-- Paths are written alike if they are trimmed alike, but for one of slashes.
theorem canonicalPath_eq_iff {path' : List Char} : canonicalPath path = canonicalPath path' ↔
    trimmed path = trimmed path' ∧ (Slashes path ↔ Slashes path') := by
  obtain ⟨h, htrimmed, heq⟩ | ⟨h, htrimmed, heq⟩ | ⟨h, htrimmed, hroot, heq⟩ :=
    canonicalPath_cases path
  · obtain ⟨h', htrimmed', heq'⟩ | ⟨h', htrimmed', heq'⟩ | ⟨h', htrimmed', _, heq'⟩ :=
      canonicalPath_cases path'
    · simp [heq, heq', htrimmed, htrimmed', h, h']
    · simp [heq, heq', h, h']
    · simp [heq, heq', Ne.symm htrimmed', h, h']
  · obtain ⟨h', htrimmed', heq'⟩ | ⟨h', htrimmed', heq'⟩ | ⟨h', htrimmed', hroot', heq'⟩ :=
      canonicalPath_cases path'
    · simp [heq, heq', h, h']
    · simp [heq, heq', htrimmed, htrimmed', h, h']
    · simp [heq, heq', htrimmed, Ne.symm htrimmed', Ne.symm hroot']
  · obtain ⟨h', htrimmed', heq'⟩ | ⟨h', htrimmed', heq'⟩ | ⟨h', htrimmed', hroot', heq'⟩ :=
      canonicalPath_cases path'
    · simp [heq, heq', htrimmed, h, h']
    · simp [heq, heq', htrimmed, htrimmed', hroot]
    · simp [heq, heq', h, h']

theorem canonicalPath_rooted (h : path = [] ∨ ∃ rest, path = '/' :: rest) :
    canonicalPath path = [] ∨ ∃ rest, canonicalPath path = '/' :: rest := by
  obtain ⟨_, _, heq⟩ | ⟨_, _, heq⟩ | ⟨_, hne, _, heq⟩ := canonicalPath_cases path
  · exact Or.inl heq
  · exact Or.inr ⟨[], heq⟩
  · obtain ⟨rest, hrest⟩ : trimmed path <+: path := List.rdropWhile_prefix _ _
    refine Or.inr ?_
    rw [heq]
    cases htrimmed : trimmed path with
    | nil => exact absurd htrimmed hne
    | cons c tail =>
      rw [htrimmed] at hrest
      obtain rfl | ⟨rest', rfl⟩ := h
      · exact absurd hrest (by simp)
      · rw [List.cons_append, List.cons.injEq] at hrest
        exact ⟨tail, by rw [hrest.1]⟩

theorem mem_canonicalPath {c : Char} (h : c ∈ canonicalPath path) : c = '/' ∨ c ∈ path := by
  obtain ⟨_, _, heq⟩ | ⟨_, _, heq⟩ | ⟨_, _, _, heq⟩ := canonicalPath_cases path
  · rw [heq] at h
    exact absurd h List.not_mem_nil
  · rw [heq] at h
    exact Or.inl (List.mem_singleton.mp h)
  · rw [heq] at h
    exact Or.inr ((List.rdropWhile_prefix _ path).mem h)

end

section

-- A URL with a scheme and a host.
structure Hosted [Unicode] (url : List Char) (parts : SplitResult) (host : List Char) : Prop where
  split : urlsplit (Str.strip Str.isSpace url) = .ok parts
  hostname : parts.hostname = some host
  scheme : parts.scheme ≠ []

-- The port that is written.
def shown (scheme : List Char) (port : Option Nat) : Option Nat :=
  port.filter fun port => some port ≠ defaultPort scheme

def hostText [Unicode] (host : List Char) : Option Nat → List Char
  | none => Unicode.lower host
  | some port => Unicode.lower host ++ ':' :: Nat.toDigits 10 port

theorem shown_default {scheme : List Char} {port : Nat} (h : some port = defaultPort scheme) :
    shown scheme (some port) = none :=
  Option.filter_some_neg (by simpa using h)

theorem shown_other {scheme : List Char} {port : Nat} (h : some port ≠ defaultPort scheme) :
    shown scheme (some port) = some port :=
  Option.filter_some_pos (by simpa using h)

theorem shown_eq_some {scheme : List Char} {port : Option Nat} {n : Nat} :
    shown scheme port = some n ↔ port = some n ∧ some n ≠ defaultPort scheme := by
  unfold shown
  rw [Option.filter_eq_some_iff, decide_eq_true_eq]

-- What is written and what is effective determine each other.
theorem shown_or_default (scheme : List Char) (port : Option Nat) :
    (shown scheme port).or (defaultPort scheme) = port.or (defaultPort scheme) := by
  cases port with
  | none => rfl
  | some n =>
    by_cases h : some n = defaultPort scheme
    · rw [shown_default h, ← h]
      rfl
    · rw [shown_other h]

theorem shown_effective (scheme : List Char) (port : Option Nat) :
    shown scheme (port.or (defaultPort scheme)) = shown scheme port := by
  cases port with
  | none =>
    cases h : defaultPort scheme with
    | none => rfl
    | some n => exact shown_default h.symm
  | some n => rfl

variable [Unicode] {url : List Char} {parts : SplitResult} {host : List Char}

theorem Hosted.unique {parts' : SplitResult} {host' : List Char} (h : Hosted url parts host)
    (h' : Hosted url parts' host') : parts = parts' ∧ host = host' := by
  have hparts : parts = parts' := by
    have heq := h.split.symm.trans h'.split
    injection heq
  subst hparts
  have heq := h.hostname.symm.trans h'.hostname
  injection heq with heq
  exact ⟨rfl, heq⟩

theorem normalizeChars_hosted (h : Hosted url parts host) :
    normalizeChars url = parts.port.map fun port =>
      urlunsplit (Unicode.lower parts.scheme)
        (hostText host (shown (Unicode.lower parts.scheme) port)) (canonicalPath parts.path)
        (canonicalQuery parts.query) := by
  unfold normalizeChars
  rw [h.split]
  dsimp only
  rw [h.hostname]
  dsimp only
  rw [if_neg h.scheme]
  cases hport : parts.port with
  | error e => rfl
  | ok port =>
    cases port with
    | none => rfl
    | some port =>
      change Except.ok _ = Except.ok _
      dsimp only
      by_cases hdefault : some port = defaultPort (Unicode.lower parts.scheme)
      · rw [shown_default hdefault, if_pos hdefault]
        rfl
      · rw [shown_other hdefault, if_neg hdefault, List.append_assoc, List.singleton_append]
        rfl

theorem normalizeChars_unhosted (h : ∀ parts host, ¬ Hosted url parts host) :
    normalizeChars url = .ok url := by
  unfold normalizeChars
  cases hsplit : urlsplit (Str.strip Str.isSpace url) with
  | error e => rfl
  | ok parts =>
    dsimp only
    cases hhost : parts.hostname with
    | none => rfl
    | some host =>
      dsimp only
      rw [if_pos]
      by_contra hscheme
      exact h parts host ⟨hsplit, hhost, hscheme⟩

omit [Unicode] in
theorem toLower_scheme {c : Char} (h : isSchemeChar c) :
    isSchemeChar c.toLower ∧ (isAlpha c → isAlpha c.toLower) ∧ Str.isAscii c := by
  have hascii : Str.isAscii c := isAscii_of_isSchemeChar h
  exact ⟨forall_ascii (p := fun c => isSchemeChar c → isSchemeChar c.toLower) (by decide +kernel)
    hascii h, forall_ascii (p := fun c => isAlpha c → isAlpha c.toLower) (by decide +kernel) hascii,
    hascii⟩

variable [Unicode.Lawful]

theorem Hosted.isScheme (h : Hosted url parts host) :
    IsScheme parts.scheme ∧ Unicode.lower parts.scheme = parts.scheme := by
  obtain hnil | ⟨scheme, hscheme, heq⟩ := (urlsplit_isSplit h.split).scheme
  · exact absurd hnil h.scheme
  · rw [heq]
    refine ⟨?_, Unicode.lower_lower scheme⟩
    have hchars := List.all_eq_true.mp hscheme.2
    have hlower := (Unicode.lowersTo_lower scheme).ascii
      (List.all_eq_true.mpr fun c hc => (toLower_scheme (hchars c hc)).2.2)
    rw [hlower]
    obtain ⟨c, rest, rfl, hc⟩ := hscheme.cons
    refine ⟨(toLower_scheme (hchars c List.mem_cons_self)).2.1 hc, ?_⟩
    rw [List.all_map, List.all_eq_true]
    exact fun c hc => (toLower_scheme (hchars c hc)).1

-- A character that is no delimiter and spills one was made of another such one.
omit [Unicode.Lawful] in
theorem spills_of_piece {c d : Char} {piece : List Char} (h : Unicode.Lowers c piece)
    (hd : d ∈ piece) (hdelimiter : d ∉ delimiters) (hspills : Unicode.Spills d) :
    c ∉ delimiters ∧ Unicode.Spills c := by
  refine ⟨fun hc => hdelimiter ?_, h.spills d hd hspills⟩
  have huncased : ∀ c ∈ delimiters, isUncased c := Str.forall_of_all (by decide)
  rw [h.kept (huncased c hc), List.mem_singleton] at hd
  rwa [hd]

theorem Hosted.mem_uncased (h : Hosted url parts host) {c : Char} (hc : isUncased c)
    (hmem : c ∈ host) : c ∈ parts.hostinfo.1 := by
  obtain ⟨c', hc', rfl | ⟨piece, hlowers, hpiece⟩⟩ := (SplitResult.hostname_some h.hostname).2 c hmem
  · exact hc'
  · rwa [← hlowers.made c hpiece hc]

theorem Hosted.spills (h : Hosted url parts host) :
    ∀ c ∈ Unicode.lower host, c ∉ delimiters → ¬ Unicode.Spills c := by
  intro d hd hdelimiter hspills
  have hsplit := urlsplit_isSplit h.split
  have hslash : '/' ∉ parts.netloc := fun hmem => (hsplit.netloc _ hmem).1 (by decide)
  have haccept := (checkNetloc_iff hslash).mp (checkNetloc_of_accept hsplit.accepted)
  have hinfo := (SplitResult.hostinfo_spec parts).1
  obtain ⟨c, hc, piece, hlowers, hpiece⟩ := (Unicode.lowersTo_lower host).mem hd
  obtain ⟨hdelimiter, hspills⟩ := spills_of_piece hlowers hpiece hdelimiter hspills
  obtain ⟨c', hc', rfl | ⟨piece', hlowers', hpiece'⟩⟩ := (SplitResult.hostname_some h.hostname).2 c hc
  · exact haccept c' (hinfo c' hc') hdelimiter hspills
  · obtain ⟨hdelimiter', hspills'⟩ := spills_of_piece hlowers' hpiece' hdelimiter hspills
    exact haccept c' (hinfo c' hc') hdelimiter' hspills'

omit [Unicode] [Unicode.Lawful] in
theorem toDigits_isDigit {n : Nat} {c : Char} (h : c ∈ Nat.toDigits 10 n) : isDigit c := by
  have hdigit := Nat.isDigit_of_mem_toDigits (by decide) (by decide) h
  unfold Char.isDigit at hdigit
  rw [Bool.and_eq_true] at hdigit
  exact decide_eq_true ⟨of_decide_eq_true hdigit.1, of_decide_eq_true hdigit.2⟩

omit [Unicode] [Unicode.Lawful] in
theorem colon_notMem_toDigits (n : Nat) : ':' ∉ Nat.toDigits 10 n :=
  fun h => absurd (toDigits_isDigit h) (by decide)

omit [Unicode] [Unicode.Lawful] in
theorem isUncased_of_isDigit {c : Char} (h : isDigit c) : isUncased c := by
  have hascii : Str.isAscii c := isAscii_of_isQuoted (decide_eq_true (Or.inr (Or.inl h)))
  exact forall_ascii (p := fun c => isDigit c → isUncased c) (by decide +kernel) hascii h

variable {port : Option Nat} {c : Char}

omit [Unicode.Lawful] in
theorem mem_hostText (h : c ∈ hostText host port) :
    c ∈ Unicode.lower host ∨ c = ':' ∨ isDigit c := by
  cases port with
  | none => exact Or.inl h
  | some n =>
    obtain hhost | hport := List.mem_append.mp h
    · exact Or.inl hhost
    · obtain hcolon | hdigit := List.mem_cons.mp hport
      · exact Or.inr (Or.inl hcolon)
      · exact Or.inr (Or.inr (toDigits_isDigit hdigit))

omit [Unicode.Lawful] in
theorem lower_prefix_hostText (host : List Char) (port : Option Nat) :
    Unicode.lower host <+: hostText host port := by
  cases port with
  | none => exact List.prefix_refl _
  | some n => exact List.prefix_append _ _

-- Characters without case that are not of a port.
theorem mem_hostText_uncased (hc : isUncased c) (hcolon : c ≠ ':') (hdigit : isDigit c = false) :
    c ∈ hostText host port ↔ c ∈ host := by
  rw [← (Unicode.lowersTo_lower host).mem_uncased hc]
  constructor
  · intro h
    obtain hhost | heq | hport := mem_hostText h
    · exact hhost
    · exact absurd heq hcolon
    · rw [hdigit] at hport
      cases hport
  · exact (lower_prefix_hostText host port).mem

theorem hostText_lowered (host : List Char) (port : Option Nat) :
    ∀ c ∈ hostText host port, Unicode.Lowered c := by
  intro c hc
  obtain hhost | rfl | hport := mem_hostText hc
  · exact Unicode.lowered_of_mem_lower hhost
  · exact Unicode.lower_singleton (by decide)
  · exact Unicode.lower_singleton (isUncased_of_isDigit hport)

theorem Hosted.hostText_chars (h : Hosted url parts host) (port : Option Nat) :
    ∀ c ∈ hostText host port, isNetloc c ∧ c ∉ blanks ∧ c ≠ '@' := by
  have hsplit := urlsplit_isSplit h.split
  obtain ⟨hinfo, hat, _⟩ := SplitResult.hostinfo_spec parts
  have hfound : ∀ c ∈ ['/', '?', '#', '@'] ++ blanks, c ∈ hostText host port →
      c ∈ parts.hostinfo.1 := by
    intro c hc hmem
    have hplain : ∀ c ∈ ['/', '?', '#', '@'] ++ blanks,
        isUncased c ∧ c ≠ ':' ∧ isDigit c = false := Str.forall_of_all (by decide)
    obtain ⟨huncased, hcolon, hdigit⟩ := hplain c hc
    exact h.mem_uncased huncased ((mem_hostText_uncased huncased hcolon hdigit).mp hmem)
  intro c hmem
  refine ⟨isNetloc_iff.mpr fun hc => ?_, fun hc => ?_, ?_⟩
  · have hsub : ∀ c ∈ ['/', '?', '#'], c ∈ ['/', '?', '#', '@'] ++ blanks :=
      Str.forall_of_all (by decide)
    have hnetloc := hinfo c (hfound c (hsub c hc) hmem)
    exact (hsplit.netloc c hnetloc).1 hc
  · have hnetloc := hinfo c (hfound c (List.mem_append_right _ hc) hmem)
    exact (hsplit.netloc c hnetloc).2 hc
  · rintro rfl
    exact hat (hfound '@' (by decide) hmem)

theorem Hosted.accepted (h : Hosted url parts host) {netloc : List Char}
    (hmem : ∀ c ∈ netloc, c ∈ hostText host port) : checkNetloc netloc = .ok () := by
  have hslash : '/' ∉ netloc :=
    fun hc => isNetloc_iff.mp (h.hostText_chars port _ (hmem _ hc)).1 (by decide)
  refine (checkNetloc_iff hslash).mpr fun c hc hdelimiter => ?_
  obtain hhost | rfl | hport := mem_hostText (hmem c hc)
  · exact h.spills c hhost hdelimiter
  · exact absurd (show ':' ∈ delimiters by decide) hdelimiter
  · have hascii : Str.isAscii c := isAscii_of_isQuoted (decide_eq_true (Or.inr (Or.inl hport)))
    rw [Unicode.spills_ascii hascii]
    exact hdelimiter

-- The parts of a key are read again.
theorem Hosted.printable (h : Hosted url parts host) (port : Option Nat) :
    Printable parts.scheme (hostText host port) (canonicalPath parts.path)
      (canonicalQuery parts.query) := by
  have hsplit := urlsplit_isSplit h.split
  have hnetloc : parts.netloc ≠ [] := by
    obtain ⟨c, hc⟩ := List.exists_mem_of_ne_nil _ (SplitResult.hostname_some h.hostname).1
    exact List.ne_nil_of_mem ((SplitResult.hostinfo_spec parts).1 c hc)
  refine ⟨h.isScheme.1, fun c hc => ?_, canonicalPath_rooted (hsplit.rooted hnetloc),
    fun c hc => ?_, fun c hc => ?_⟩
  · obtain ⟨hchar, hblank, _⟩ := h.hostText_chars port c hc
    exact ⟨hchar, hblank⟩
  · obtain rfl | hpath := mem_canonicalPath hc
    · decide
    · exact hsplit.path c hpath
  · obtain ⟨hhash, hblank, _⟩ := mem_canonicalQuery hc
    exact ⟨hhash, hblank⟩

theorem normalizeChars_eq (h : Hosted url parts host) (hport : parts.port = .ok port) :
    normalizeChars url = .ok (urlunsplit parts.scheme (hostText host (shown parts.scheme port))
      (canonicalPath parts.path) (canonicalQuery parts.query)) := by
  rw [normalizeChars_hosted h, hport, h.isScheme.2]
  rfl

end

section

variable [Unicode] {text : List Char} {parts : SplitResult}

theorem port_none (h : parts.hostinfo.2 = none) : parts.port = .ok none := by
  unfold SplitResult.port
  rw [h]

theorem port_toDigits {n : Nat} (h : parts.hostinfo.2 = some (Nat.toDigits 10 n)) (hn : n ≤ 65535) :
    parts.port = .ok (some n) := by
  have hdigits : (Nat.toDigits 10 n).all isDigit :=
    List.all_eq_true.mpr fun c hc => toDigits_isDigit hc
  have hlength : (Nat.toDigits 10 n).length ≤ 4300 := by
    have hfive : (Nat.toDigits 10 n).length ≤ 5 :=
      (Nat.length_toDigits_le_iff (by decide) (by decide)).mpr (by omega)
    omega
  unfold SplitResult.port
  rw [h]
  dsimp only
  rw [if_neg (not_not_intro hdigits), if_neg (by omega), Nat.ofDigitChars_ten_toDigits,
    if_neg (by omega)]

theorem port_colon (h : parts.hostinfo.2 = some text) (hcolon : ':' ∈ text) :
    ∃ e, parts.port = .error e := by
  have hdigits : ¬ text.all isDigit := by
    intro hall
    exact absurd (List.all_eq_true.mp hall ':' hcolon) (by decide)
  unfold SplitResult.port
  rw [h]
  exact ⟨_, if_pos hdigits⟩

theorem port_le {n : Nat} (h : parts.port = .ok (some n)) : n ≤ 65535 := by
  unfold SplitResult.port at h
  cases hinfo : parts.hostinfo.2 with
  | none =>
    rw [hinfo] at h
    cases h
  | some text =>
    rw [hinfo] at h
    dsimp only at h
    split at h
    · cases h
    · split at h
      · cases h
      · split at h
        · cases h
        case isFalse hle =>
          cases h
          omega

variable [Unicode.Lawful]

-- A host of lowered characters is read as it stands.
theorem hostname_lowered (h : ∀ c ∈ parts.hostinfo.1, Unicode.Lowered c) :
    parts.hostname = if parts.hostinfo.1 = [] then none else some parts.hostinfo.1 := by
  unfold SplitResult.hostname
  dsimp only
  split
  · rfl
  · obtain ⟨_, heq⟩ | ⟨before, after, hinfo, _, heq⟩ := Str.partition_cases '%' parts.hostinfo.1
    · rw [heq]
      dsimp only
      rw [Unicode.lower_eq_self h, if_neg Bool.false_ne_true, List.append_nil, List.append_nil]
    · have hbefore : ∀ c ∈ before, Unicode.Lowered c := by
        intro c hc
        refine h c ?_
        rw [hinfo]
        exact List.mem_append_left _ hc
      rw [heq]
      dsimp only
      rw [Unicode.lower_eq_self hbefore, if_pos rfl, hinfo]
      simp

variable {url scheme netloc path query : List Char}

-- What the second normalization starts from.
structure Plain (netloc : List Char) : Prop where
  at_notMem : '@' ∉ netloc
  open_notMem : '[' ∉ netloc
  close_notMem : ']' ∉ netloc
  accepted : checkNetloc netloc = .ok ()
  lowered : ∀ c ∈ netloc, Unicode.Lowered c

-- The host and the port of a plain text.
theorem Plain.hosted (hplain : Plain netloc) (h : Printable scheme netloc path query)
    (hlower : Unicode.lower scheme = scheme)
    (hstrip : Str.strip Str.isSpace url = urlunsplit scheme netloc path query)
    (hname : (Str.partition ':' netloc).1 ≠ []) :
    Hosted url ⟨scheme, netloc, path, query, []⟩ (Str.partition ':' netloc).1 := by
  have hinfo := @SplitResult.hostinfo_plain ⟨scheme, netloc, path, query, []⟩
    hplain.at_notMem hplain.open_notMem
  refine ⟨?_, ?_, ?_⟩
  · rw [hstrip, urlsplit_urlunsplit h hlower,
      acceptNetloc_plain ⟨hplain.open_notMem, hplain.close_notMem⟩, hplain.accepted]
    rfl
  · rw [hostname_lowered]
    · rw [hinfo]
      exact if_neg hname
    · rw [hinfo]
      exact fun c hc => hplain.lowered c (Str.mem_of_mem_before hc)
  · obtain ⟨c, rest, heq, _⟩ := h.scheme.cons
    dsimp only
    rw [heq]
    exact List.cons_ne_nil c rest

-- A text that is not split, or that has no host.
theorem normalizeChars_unread (h : Printable scheme netloc path query)
    (hlower : Unicode.lower scheme = scheme)
    (hstrip : Str.strip Str.isSpace url = urlunsplit scheme netloc path query)
    (hunread : (('[' ∈ netloc) ≠ (']' ∈ netloc)) ∨
      '@' ∉ netloc ∧ '[' ∉ netloc ∧ (Str.partition ':' netloc).1 = []) :
    normalizeChars url = .ok url := by
  apply normalizeChars_unhosted
  rintro parts host ⟨hsplit, hhost, _⟩
  rw [hstrip, urlsplit_urlunsplit h hlower] at hsplit
  obtain hopen | ⟨hat, hopen, hname⟩ := hunread
  · obtain ⟨e, he⟩ := acceptNetloc_open hopen
    rw [he] at hsplit
    cases hsplit
  · cases haccept : acceptNetloc netloc with
    | error e =>
      rw [haccept] at hsplit
      cases hsplit
    | ok u =>
      rw [haccept] at hsplit
      cases hsplit
      refine (SplitResult.hostname_some hhost).1 ?_
      rw [SplitResult.hostinfo_plain hat hopen]
      exact hname

end

-- What a URL names: the parts that the key is made of.
structure Address where
  parts : SplitResult
  host : List Char
  port : Option Nat

namespace Address

def shown (a : Address) : Option Nat := Agent.shown a.parts.scheme a.port

def effectivePort (a : Address) : Option Nat := a.port.or (defaultPort a.parts.scheme)

section

variable [Unicode]

structure Of (url : List Char) (a : Address) : Prop where
  hosted : Hosted url a.parts a.host
  port : a.parts.port = .ok a.port

theorem Of.unique {url : List Char} {a b : Address} (ha : Of url a) (hb : Of url b) : a = b := by
  obtain ⟨parts, host, port⟩ := a
  obtain ⟨parts', host', port'⟩ := b
  obtain ⟨rfl, rfl⟩ := ha.hosted.unique hb.hosted
  have heq := ha.port.symm.trans hb.port
  cases heq
  rfl

structure SameResource (a b : Address) : Prop where
  scheme : a.parts.scheme = b.parts.scheme
  host : Unicode.lower a.host = Unicode.lower b.host
  port : a.effectivePort = b.effectivePort
  path : trimmed a.parts.path = trimmed b.parts.path
  query : (keptFields a.parts.query).Perm (keptFields b.parts.query)

-- The root of one is written as slashes only, and lost; that of the other is not.
structure Missed (a b : Address) : Prop where
  same : SameResource a b
  slashes : Slashes a.parts.path ↔ ¬ Slashes b.parts.path

-- The host of `a` ends in what the port of `b` is written as.
def Clashes (a b : Address) : Prop := a.shown = none ∧ ∃ n, b.shown = some n ∧
  Unicode.lower a.host = Unicode.lower b.host ++ ':' :: Nat.toDigits 10 n

structure Collides (a b : Address) : Prop where
  scheme : a.parts.scheme = b.parts.scheme
  host : Clashes a b ∨ Clashes b a
  path : trimmed a.parts.path = trimmed b.parts.path
  slashes : Slashes a.parts.path ↔ Slashes b.parts.path
  query : (keptFields a.parts.query).Perm (keptFields b.parts.query)

variable {a b : Address}

theorem Clashes.host_ne (h : Clashes a b) : Unicode.lower a.host ≠ Unicode.lower b.host := by
  obtain ⟨_, n, _, heq⟩ := h
  intro hsame
  rw [hsame] at heq
  have hlength := congrArg List.length heq
  rw [List.length_append, List.length_cons] at hlength
  omega

omit [Unicode] in
theorem toDigits_inj {m n : Nat} (h : Nat.toDigits 10 m = Nat.toDigits 10 n) : m = n := by
  rw [← Nat.ofDigitChars_ten_toDigits (n := m), h, Nat.ofDigitChars_ten_toDigits]

-- Hosts and ports that are written alike.
theorem hostText_eq_iff : hostText a.host a.shown = hostText b.host b.shown ↔
    (Unicode.lower a.host = Unicode.lower b.host ∧ a.shown = b.shown) ∨ Clashes a b ∨
      Clashes b a := by
  unfold Clashes
  cases ha : a.shown with
  | none =>
    cases hb : b.shown with
    | none => simp [hostText]
    | some n => simp [hostText]
  | some m =>
    cases hb : b.shown with
    | none => simp [hostText, eq_comm]
    | some n =>
      simp only [reduceCtorEq, false_and, or_false, Option.some.injEq]
      constructor
      · intro h
        have hsplit := congrArg (Str.rpartition ':') h
        unfold hostText at hsplit
        rw [Str.rpartition_append (colon_notMem_toDigits m),
          Str.rpartition_append (colon_notMem_toDigits n)] at hsplit
        injection hsplit with hhost hport
        injection hport with _ hport
        exact ⟨hhost, toDigits_inj hport⟩
      · rintro ⟨hhost, rfl⟩
        unfold hostText
        rw [hhost]

omit [Unicode] in
theorem shown_eq_iff (h : a.parts.scheme = b.parts.scheme) :
    a.shown = b.shown ↔ a.effectivePort = b.effectivePort := by
  unfold shown effectivePort
  rw [h]
  constructor
  · intro heq
    rw [← shown_or_default, heq, shown_or_default]
  · intro heq
    rw [← shown_effective, heq, shown_effective]

variable [Unicode.Lawful]

-- Equal keys, by what the URLs name.
theorem normalizeChars_eq_iff {url url' : List Char} (ha : Of url a) (hb : Of url' b) :
    normalizeChars url = normalizeChars url' ↔ a.parts.scheme = b.parts.scheme ∧
      ((Unicode.lower a.host = Unicode.lower b.host ∧ a.effectivePort = b.effectivePort) ∨
        Clashes a b ∨ Clashes b a) ∧
      (trimmed a.parts.path = trimmed b.parts.path ∧
        (Slashes a.parts.path ↔ Slashes b.parts.path)) ∧
      (keptFields a.parts.query).Perm (keptFields b.parts.query) := by
  rw [normalizeChars_eq ha.hosted ha.port, normalizeChars_eq hb.hosted hb.port, Except.ok.injEq,
    urlunsplit_inj (ha.hosted.printable _) (hb.hosted.printable _), canonicalPath_eq_iff,
    canonicalQuery_eq_iff]
  refine and_congr_right fun hscheme => and_congr_left fun _ => ?_
  rw [← shown_eq_iff hscheme]
  exact hostText_eq_iff

-- Two URLs have one key exactly if they name one resource, unless the root of
-- just one of them is lost, or the host of one is written as the host and port
-- of the other.
theorem normalizeUrl_identifies {url url' : String} (ha : Of url.toList a) (hb : Of url'.toList b) :
    ((normalizeUrl url = normalizeUrl url') ↔ SameResource a b) ↔
      ¬ Missed a b ∧ ¬ Collides a b := by
  have hkeys : normalizeUrl url = normalizeUrl url' ↔
      normalizeChars url.toList = normalizeChars url'.toList := by
    unfold normalizeUrl
    rw [normalizeChars_eq ha.hosted ha.port, normalizeChars_eq hb.hosted hb.port]
    change Except.ok _ = Except.ok _ ↔ _
    rw [Except.ok.injEq, Except.ok.injEq, String.ofList_inj]
  rw [hkeys, normalizeChars_eq_iff ha hb]
  constructor
  · intro h
    constructor
    · intro hmissed
      have hkey := h.mpr hmissed.same
      have hslashes := hkey.2.2.1.2.symm.trans hmissed.slashes
      exact (iff_not_self hslashes).elim
    · intro hcollides
      have hsame := h.mp ⟨hcollides.scheme, Or.inr hcollides.host,
        ⟨hcollides.path, hcollides.slashes⟩, hcollides.query⟩
      obtain hclash | hclash := hcollides.host
      · exact hclash.host_ne hsame.host
      · exact hclash.host_ne hsame.host.symm
  · rintro ⟨hmissed, hcollides⟩
    constructor
    · rintro ⟨hscheme, ⟨hhost, hport⟩ | hclash, ⟨hpath, hslashes⟩, hquery⟩
      · exact ⟨hscheme, hhost, hport, hpath, hquery⟩
      · exact absurd ⟨hscheme, hclash, hpath, hslashes, hquery⟩ hcollides
    · intro hsame
      refine ⟨hsame.scheme, Or.inl ⟨hsame.host, hsame.port⟩, ⟨hsame.path, ?_⟩, hsame.query⟩
      by_contra hslashes
      refine hmissed ⟨hsame, fun h h' => hslashes (iff_of_true h h'), fun h' => ?_⟩
      by_contra h
      exact hslashes (iff_of_false h h')

end

end Address

namespace Sample

theorem toLower_facts (c : Char) : c.toLower.toLower = c.toLower ∧ (isUncased c → c.toLower = c) ∧
    (isUncased c.toLower → c.toLower = c) := by
  by_cases h : Str.isAscii c
  · exact forall_ascii (p := fun c => c.toLower.toLower = c.toLower ∧
      (isUncased c → c.toLower = c) ∧ (isUncased c.toLower → c.toLower = c)) (by decide +kernel) h
  · have hkept : c.toLower = c := by
      refine dif_neg fun hupper => h ?_
      refine decide_eq_true (UInt32.lt_iff_toNat_lt.mpr ?_)
      have hle : c.val.toNat ≤ 0x5A := UInt32.le_iff_toNat_le.mp hupper.2
      exact Nat.lt_of_le_of_lt hle (by decide)
    rw [hkept, hkept]
    exact ⟨rfl, fun _ => rfl, fun _ => rfl⟩

instance lawful : @Unicode.Lawful unicode :=
  letI := unicode
  { lowersTo_lower := by
      intro s
      induction s with
      | nil => exact .nil
      | cons c s ih =>
        obtain ⟨htwice, hkept, hmade⟩ := toLower_facts c
        refine @Unicode.LowersTo.cons _ c [c.toLower] _ _ ⟨List.cons_ne_nil _ _, fun _ => rfl,
          fun hc => congrArg (fun d => [d]) (hkept hc), fun d hd huncased => ?_, fun d hd => ?_,
          fun d hd hspills => ?_⟩ ih
        · rw [List.mem_singleton.mp hd] at huncased ⊢
          exact (hmade huncased).symm
        · rw [List.mem_singleton.mp hd]
          exact congrArg (fun d => [d]) htwice
        · obtain ⟨e, he, hdelimiter⟩ := hspills
          have hcases : e = c.toLower := by
            rw [← List.mem_singleton.mp hd]
            exact List.mem_singleton.mp he
          have huncased : ∀ c ∈ delimiters, isUncased c := Str.forall_of_all (by decide)
          rw [hcases] at hdelimiter
          rw [hmade (huncased _ hdelimiter)] at hdelimiter
          exact ⟨c, List.mem_singleton_self c, hdelimiter⟩
    lower_lowered := by
      intro s h
      have hkept : s.map Char.toLower = s.map id :=
        List.map_congr_left fun c hc => (List.cons.inj (h c hc)).1
      exact hkept.trans (List.map_id s)
    spills_of_nfkc := fun s d hd hdelimiter => ⟨d, hd, d, List.mem_singleton_self d, hdelimiter⟩
    nfkc_of_spills := by
      rintro s c hc ⟨d, hd, hdelimiter⟩
      rw [List.mem_singleton.mp hd] at hdelimiter
      exact ⟨c, hc, hdelimiter⟩
    nfkc_ascii := fun _ _ => rfl }

def address (scheme netloc path : String) (port : Option Nat) (host : String) : Address :=
  ⟨⟨scheme.toList, netloc.toList, path.toList, [], []⟩, host.toList, port⟩

def plain : Address where
  parts := ⟨"https".toList, "Example.com".toList, "/a".toList, "b=1&utm_x=2".toList, []⟩
  host := "example.com".toList
  port := none

def spelled : Address where
  parts := ⟨"https".toList, "example.com:443".toList, "/a/".toList, "b=1".toList, "c".toList⟩
  host := "example.com".toList
  port := some 443

end Sample

theorem same_spellings :
    letI := Sample.unicode
    normalizeUrl "https://Example.com/a?b=1&utm_x=2" =
        normalizeUrl "https://example.com:443/a/?b=1#c" ∧
      (((normalizeUrl "https://Example.com/a?b=1&utm_x=2" =
          normalizeUrl "https://example.com:443/a/?b=1#c") ↔
        Address.SameResource Sample.plain Sample.spelled) ↔
      ¬ Address.Missed Sample.plain Sample.spelled ∧
        ¬ Address.Collides Sample.plain Sample.spelled) := by
  let := Sample.unicode
  refine ⟨by decide +kernel, Address.normalizeUrl_identifies ?_ ?_⟩
  · exact ⟨⟨by decide +kernel, by decide +kernel, by decide +kernel⟩, by decide +kernel⟩
  · exact ⟨⟨by decide +kernel, by decide +kernel, by decide +kernel⟩, by decide +kernel⟩

-- The root of one URL is lost, and the port of another is read as of its host.
theorem keys_differ :
    letI := Sample.unicode
    (∃ a b, Address.Of "http://example.com".toList a ∧ Address.Of "http://example.com//".toList b ∧
      Address.SameResource a b ∧
      normalizeUrl "http://example.com" ≠ normalizeUrl "http://example.com//") ∧
    (∃ a b, Address.Of "http://[2001:db8::1]:8080/".toList a ∧
      Address.Of "http://[2001:db8::1:8080]/".toList b ∧ ¬ Address.SameResource a b ∧
      normalizeUrl "http://[2001:db8::1]:8080/" = normalizeUrl "http://[2001:db8::1:8080]/") := by
  let := Sample.unicode
  refine ⟨⟨Sample.address "http" "example.com" "" none "example.com",
    Sample.address "http" "example.com" "//" none "example.com", ?_, ?_, ?_, ?_⟩,
    ⟨Sample.address "http" "[2001:db8::1]:8080" "/" (some 8080) "2001:db8::1",
      Sample.address "http" "[2001:db8::1:8080]" "/" none "2001:db8::1:8080", ?_, ?_, ?_, ?_⟩⟩
  · exact ⟨⟨by decide +kernel, by decide +kernel, by decide +kernel⟩, by decide +kernel⟩
  · exact ⟨⟨by decide +kernel, by decide +kernel, by decide +kernel⟩, by decide +kernel⟩
  · exact ⟨rfl, rfl, rfl, by decide +kernel, by decide +kernel⟩
  · decide +kernel
  · exact ⟨⟨by decide +kernel, by decide +kernel, by decide +kernel⟩, by decide +kernel⟩
  · exact ⟨⟨by decide +kernel, by decide +kernel, by decide +kernel⟩, by decide +kernel⟩
  · intro h
    exact absurd h.host (by decide +kernel)
  · decide +kernel

end AgentBoilerplate.Agent
