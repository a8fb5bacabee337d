import AgentBoilerplate.Agent.Keys

namespace AgentBoilerplate.Agent

open Python UrlParse

-- A host that is not found again in what is written of it.
def Unread (host : List Char) : Prop := '[' ∈ host ∨ ']' ∈ host ∨ host.head? = some ':'

-- A host that is found again, with a port if it ends in one.
def HostRepeats (scheme host : List Char) (port : Option Nat) : Prop :=
  ':' ∉ host ∨ port = none ∧ ∃ name n, host = name ++ ':' :: Nat.toDigits 10 n ∧ ':' ∉ name ∧
    n ≤ 65535 ∧ some n ≠ defaultPort scheme

theorem before_ne_nil {s : List Char} {sep : Char} (hne : s ≠ []) (hhead : s.head? ≠ some sep) :
    (Str.partition sep s).1 ≠ [] := by
  obtain ⟨_, heq⟩ | ⟨before, after, rfl, _, heq⟩ := Str.partition_cases sep s
  · rwa [heq]
  · rw [heq]
    rintro rfl
    exact hhead rfl

section

variable [Unicode] [Unicode.Lawful] {url : List Char} {parts : SplitResult} {host : List Char}
  {port : Option Nat}

theorem hostText_ne_nil (hne : host ≠ []) : hostText host port ≠ [] := by
  intro hnil
  have hprefix := lower_prefix_hostText host port
  rw [hnil, List.prefix_nil] at hprefix
  exact (Unicode.lowersTo_lower host).ne_nil hne hprefix

theorem hostText_head (port : Option Nat) (hne : host ≠ []) {c : Char} (hc : isUncased c) :
    (hostText host port).head? = some c ↔ host.head? = some c := by
  rw [← (Unicode.lowersTo_lower host).head_uncased hc]
  obtain ⟨rest, hrest⟩ := lower_prefix_hostText host port
  obtain ⟨d, tail, hd⟩ := List.exists_cons_of_ne_nil ((Unicode.lowersTo_lower host).ne_nil hne)
  rw [← hrest, hd]
  rfl

theorem Hosted.host_ne_nil (h : Hosted url parts host) : host ≠ [] :=
  SplitResult.hostname_ne_nil h.hostname

-- Every part of a host that is found again can be read.
theorem Hosted.plain (h : Hosted url parts host) (port : Option Nat) (hread : ¬ Unread host) {netloc : List Char}
    (hmem : ∀ c ∈ netloc, c ∈ hostText host port) : Plain netloc where
  at_notMem hc := (h.hostText_chars port _ (hmem _ hc)).2.2 rfl
  open_notMem hc := hread (Or.inl
    ((mem_hostText_uncased (by decide) (by decide) (by decide)).mp (hmem _ hc)))
  close_notMem hc := hread (Or.inr (Or.inl
    ((mem_hostText_uncased (by decide) (by decide) (by decide)).mp (hmem _ hc))))
  accepted := h.accepted hmem
  lowered c hc := hostText_lowered host port c (hmem c hc)

theorem Hosted.name_ne_nil (h : Hosted url parts host) (port : Option Nat) (hread : ¬ Unread host) :
    (Str.partition ':' (hostText host port)).1 ≠ [] := by
  refine before_ne_nil (hostText_ne_nil h.host_ne_nil) fun hhead => hread (Or.inr (Or.inr ?_))
  exact (hostText_head port h.host_ne_nil (by decide)).mp hhead

-- When the host and port that are read from the text are written as it.
theorem reread_iff {scheme path query : List Char}
    (hplain : Plain (hostText host port))
    (hport : ∀ n, port = some n → n ≤ 65535 ∧ some n ≠ defaultPort scheme) :
    (∃ port', SplitResult.port ⟨scheme, hostText host port, path, query, []⟩ = .ok port' ∧
      hostText (Str.partition ':' (hostText host port)).1 (shown scheme port') =
        hostText host port) ↔ HostRepeats scheme host port := by
  have hinfo := @SplitResult.hostinfo_plain ⟨scheme, hostText host port, path, query, []⟩
    hplain.at_notMem hplain.open_notMem
  dsimp only at hinfo
  have hlowers := Unicode.lowersTo_lower host
  have hcolon : isUncased ':' := by decide
  by_cases hmem : ':' ∈ host
  case pos =>
    obtain ⟨name, rest, rfl, hname⟩ := List.eq_append_cons_of_mem hmem
    obtain ⟨name', rest', heq, hname', hrest'⟩ := hlowers.around hcolon
    have hnotMem : ':' ∉ name' := fun h => hname ((hname'.mem_uncased hcolon).mp h)
    cases port with
    | some q =>
      -- two colons
      have htext : hostText (name ++ ':' :: rest) (some q) =
          name' ++ ':' :: (rest' ++ ':' :: Nat.toDigits 10 q) := by
        change Unicode.lower _ ++ ':' :: Nat.toDigits 10 q = _
        rw [heq, List.append_assoc, List.cons_append]
      rw [htext] at hinfo ⊢
      rw [Str.partition_append hnotMem] at hinfo ⊢
      have hne : rest' ++ ':' :: Nat.toDigits 10 q ≠ [] := by simp
      constructor
      · rintro ⟨port', hok, _⟩
        obtain ⟨e, he⟩ := port_colon (congrArg Prod.snd (hinfo.trans (by rw [if_neg hne])))
          (List.mem_append_right rest' List.mem_cons_self)
        rw [he] at hok
        cases hok
      · rintro (h | ⟨h, _⟩)
        · exact absurd hmem h
        · cases h
    | none =>
      have htext : hostText (name ++ ':' :: rest) none = name' ++ ':' :: rest' := heq
      rw [htext] at hplain hinfo ⊢
      rw [Str.partition_append hnotMem] at hinfo ⊢
      have hname_lower : Unicode.lower name' = name' :=
        Unicode.lower_eq_self fun c hc => hplain.lowered c (List.mem_append_left _ hc)
      constructor
      · rintro ⟨port', hok, htext⟩
        dsimp only at htext
        cases hshown : shown scheme port' with
        | none =>
          rw [hshown] at htext
          change Unicode.lower name' = _ at htext
          rw [hname_lower] at htext
          have hlength := congrArg List.length htext
          rw [List.length_append, List.length_cons] at hlength
          omega
        | some n =>
          rw [hshown] at htext
          change Unicode.lower name' ++ ':' :: _ = _ at htext
          rw [hname_lower, List.append_cancel_left_eq, List.cons.injEq] at htext
          obtain ⟨rfl, hdefault⟩ := shown_eq_some.mp hshown
          have hrest : rest' = rest := hrest'.eq_of_made fun c hc =>
            isUncased_of_isDigit (toDigits_isDigit (htext.2 ▸ hc))
          refine Or.inr ⟨rfl, name, n, ?_, hname, port_le hok, hdefault⟩
          rw [htext.2, hrest]
      · rintro (h | ⟨_, other, n, hhost, hother, hle, hdefault⟩)
        · exact absurd hmem h
        · have hsplit := congrArg (Str.partition ':') hhost
          rw [Str.partition_append hname, Str.partition_append hother] at hsplit
          simp only [Prod.mk.injEq, true_and] at hsplit
          obtain ⟨rfl, rfl⟩ := hsplit
          have hrest : rest' = Nat.toDigits 10 n := hrest'.eq_of_uncased fun c hc =>
            isUncased_of_isDigit (toDigits_isDigit hc)
          rw [hrest, if_neg Nat.toDigits_ne_nil] at hinfo
          refine ⟨some n, ?_, ?_⟩
          · rw [hrest]
            exact port_toDigits (congrArg Prod.snd hinfo) hle
          · rw [shown_other hdefault, hrest]
            change Unicode.lower name' ++ ':' :: _ = _
            rw [hname_lower]
  case neg =>
    refine iff_of_true ?_ (Or.inl hmem)
    have hnotMem : ':' ∉ Unicode.lower host := fun h => hmem ((hlowers.mem_uncased hcolon).mp h)
    cases port with
    | none =>
      have htext : hostText host none = Unicode.lower host := rfl
      rw [htext] at hplain hinfo ⊢
      rw [Str.partition_of_notMem hnotMem] at hinfo ⊢
      refine ⟨none, port_none (congrArg Prod.snd hinfo), Unicode.lower_eq_self hplain.lowered⟩
    | some q =>
      have htext : hostText host (some q) = Unicode.lower host ++ ':' :: Nat.toDigits 10 q := rfl
      rw [htext] at hinfo ⊢
      rw [Str.partition_append hnotMem] at hinfo ⊢
      rw [if_neg Nat.toDigits_ne_nil] at hinfo
      obtain ⟨hle, hdefault⟩ := hport q rfl
      refine ⟨some q, port_toDigits (congrArg Prod.snd hinfo) hle, ?_⟩
      rw [shown_other hdefault]
      unfold hostText
      rw [Unicode.lower_lower]

end

section

variable {p : Char → Bool} {s : List Char} {c : Char}

theorem mem_rdropWhile (hc : p c = false) : c ∈ s.rdropWhile p ↔ c ∈ s := by
  constructor
  · exact (List.rdropWhile_prefix p s).mem
  · intro h
    obtain ⟨before, after, rfl⟩ := List.append_of_mem h
    rw [rdropWhile_append_cons hc]
    exact List.mem_append_right _ List.mem_cons_self

theorem length_rdropWhile_lt (hlast : c ∈ s.getLast?) (hc : p c) :
    (s.rdropWhile p).length < s.length := by
  obtain ⟨before, rfl⟩ := List.getLast?_eq_some_iff.mp hlast
  rw [List.rdropWhile_concat_pos _ _ _ hc, List.length_append, List.length_singleton]
  have hle := (List.rdropWhile_prefix p before).length_le
  omega

theorem head_rdropWhile (hc : p c = false) (h : s.head? = some c) :
    (s.rdropWhile p).head? = some c := by
  obtain ⟨tail, rfl⟩ : ∃ tail, s = c :: tail := by
    cases s with
    | nil => cases h
    | cons d tail => exact ⟨tail, by rw [Option.some.inj h]⟩
  have happend := rdropWhile_append_cons (s := []) (t := tail) hc
  rw [List.nil_append] at happend
  rw [happend]
  rfl

end

theorem trimmed_trimmed (path : List Char) : trimmed (trimmed path) = trimmed path :=
  List.rdropWhile_idempotent _ _

-- Only a path of slashes is written another way the second time.
theorem canonicalPath_again {path : List Char} :
    canonicalPath (canonicalPath path) = canonicalPath path ↔ ¬ Slashes path := by
  obtain ⟨h, _, heq⟩ | ⟨h, _, heq⟩ | ⟨h, hne, _, heq⟩ := canonicalPath_cases path
  · rw [heq]
    exact iff_of_false (by decide) (not_not_intro h)
  · rw [heq]
    exact iff_of_true (by decide) h
  · rw [heq]
    refine iff_of_true ?_ h
    rw [canonicalPath_trimmed (by rwa [trimmed_trimmed]), trimmed_trimmed]

-- A path whose last space is lost is written another way.
theorem canonicalPath_stripped {path rest : List Char} (hpath : canonicalPath path = '/' :: rest) :
    canonicalPath ('/' :: rest.rdropWhile Str.isSpace) = '/' :: rest ↔
      ∀ c ∈ (trimmed path).getLast?, Str.isSpace c = false := by
  have hstrip : ('/' :: rest).rdropWhile Str.isSpace = '/' :: rest.rdropWhile Str.isSpace :=
    rdropWhile_append_cons (s := []) rfl
  obtain ⟨_, _, heq⟩ | ⟨h, htrimmed, heq⟩ | ⟨h, hne, hroot, heq⟩ := canonicalPath_cases path
  · rw [heq] at hpath
    cases hpath
  · rw [heq] at hpath
    cases hpath
    rw [htrimmed]
    exact iff_of_true (by decide) (by simp)
  · rw [heq] at hpath
    rw [hpath]
    constructor
    · intro hagain c hc
      by_contra hspace
      have hshort : (('/' :: rest).rdropWhile Str.isSpace).length < ('/' :: rest).length :=
        length_rdropWhile_lt hc ((Bool.not_eq_false _).mp hspace)
      rw [hstrip] at hshort
      obtain ⟨_, _, heq'⟩ | ⟨_, _, heq'⟩ | ⟨_, _, _, heq'⟩ :=
        canonicalPath_cases ('/' :: rest.rdropWhile Str.isSpace)
      · rw [heq'] at hagain
        cases hagain
      · rw [heq', ← hpath] at hagain
        exact hroot hagain.symm
      · rw [heq'] at hagain
        have hle := (List.rdropWhile_prefix (fun c => decide (c = '/'))
          ('/' :: rest.rdropWhile Str.isSpace)).length_le
        change (trimmed _).length ≤ _ at hle
        rw [hagain] at hle
        omega
    · intro hlast
      rw [← hstrip, rdropWhile_of_last hlast, ← hpath, ← heq]
      exact canonicalPath_again.mpr h

section

variable [Unicode] [Unicode.Lawful] {url : List Char} {a : Address}

-- What a URL that names `a` is normalized to.
def key (a : Address) : List Char :=
  urlunsplit a.parts.scheme (hostText a.host a.shown) (canonicalPath a.parts.path)
    (canonicalQuery a.parts.query)

-- The three ways in which a key loses its last spaces.
theorem strip_key (h : Address.Of url a) : ∃ netloc path,
    Str.strip Str.isSpace (key a) =
      urlunsplit a.parts.scheme netloc path (canonicalQuery a.parts.query) ∧
    Printable a.parts.scheme netloc path (canonicalQuery a.parts.query) ∧
    ((keptFields a.parts.query ≠ [] ∧ netloc = hostText a.host a.shown ∧
        path = canonicalPath a.parts.path) ∨
      (keptFields a.parts.query = [] ∧ ∃ rest, netloc = hostText a.host a.shown ∧
        canonicalPath a.parts.path = '/' :: rest ∧ path = '/' :: rest.rdropWhile Str.isSpace) ∨
      (keptFields a.parts.query = [] ∧ netloc = (hostText a.host a.shown).rdropWhile Str.isSpace ∧
        canonicalPath a.parts.path = [] ∧ path = [])) := by
  have hprint := h.hosted.printable a.shown
  unfold key
  by_cases hquery : keptFields a.parts.query = []
  · have hnil := canonicalQuery_eq_nil.mpr hquery
    rw [hnil] at hprint ⊢
    obtain hpath | ⟨rest, hpath⟩ := hprint.rooted
    · rw [hpath] at hprint ⊢
      refine ⟨_, [], strip_hosted hprint, ⟨hprint.scheme, fun c hc => ?_, Or.inl rfl,
        fun c hc => absurd hc List.not_mem_nil, fun c hc => absurd hc List.not_mem_nil⟩,
        Or.inr (Or.inr ⟨hquery, rfl, rfl, rfl⟩)⟩
      exact hprint.netloc c ((List.rdropWhile_prefix _ _).mem hc)
    · rw [hpath] at hprint ⊢
      refine ⟨_, _, strip_rooted hprint, ⟨hprint.scheme, hprint.netloc, Or.inr ⟨_, rfl⟩,
        fun c hc => ?_, fun c hc => absurd hc List.not_mem_nil⟩,
        Or.inr (Or.inl ⟨hquery, rest, rfl, rfl, rfl⟩)⟩
      refine hprint.path c ?_
      obtain rfl | hrest := List.mem_cons.mp hc
      · exact List.mem_cons_self
      · exact List.mem_cons_of_mem _ ((List.rdropWhile_prefix _ _).mem hrest)
  · have hne : canonicalQuery a.parts.query ≠ [] := fun hnil => hquery (canonicalQuery_eq_nil.mp hnil)
    exact ⟨_, _, strip_asked hprint hne fun c hc => (mem_canonicalQuery hc).2.2, hprint,
      Or.inl ⟨hquery, rfl, rfl⟩⟩

omit [Unicode.Lawful] in
theorem mem_netloc_key {netloc : List Char} (h : netloc = hostText a.host a.shown ∨
    netloc = (hostText a.host a.shown).rdropWhile Str.isSpace) :
    (∀ c ∈ netloc, c ∈ hostText a.host a.shown) ∧
      (∀ c, Str.isSpace c = false → (c ∈ netloc ↔ c ∈ hostText a.host a.shown)) ∧
      ∀ c, Str.isSpace c = false → (hostText a.host a.shown).head? = some c →
        netloc.head? = some c := by
  obtain rfl | rfl := h
  · exact ⟨fun c hc => hc, fun c _ => Iff.rfl, fun c _ hhead => hhead⟩
  · exact ⟨fun c hc => (List.rdropWhile_prefix _ _).mem hc, fun c hc => mem_rdropWhile hc,
      fun c hc hhead => head_rdropWhile hc hhead⟩

-- A host with a bracket, or that starts with a colon: the key is returned as it is.
theorem key_unread (h : Address.Of url a) (hunread : Unread a.host) :
    normalizeChars (key a) = .ok (key a) := by
  obtain ⟨netloc, path, hstrip, hprint, hcases⟩ := strip_key h
  have hnetloc : netloc = hostText a.host a.shown ∨
      netloc = (hostText a.host a.shown).rdropWhile Str.isSpace := by
    obtain ⟨_, heq, _⟩ | ⟨_, _, heq, _⟩ | ⟨_, heq, _⟩ := hcases
    · exact Or.inl heq
    · exact Or.inl heq
    · exact Or.inr heq
  obtain ⟨hmem, hsame, hhead⟩ := mem_netloc_key hnetloc
  have hbracket : ∀ c, isUncased c → c ≠ ':' → isDigit c = false → Str.isSpace c = false →
      (c ∈ netloc ↔ c ∈ a.host) := fun c huncased hcolon hdigit hspace =>
    (hsame c hspace).trans (mem_hostText_uncased huncased hcolon hdigit)
  have hopen := hbracket '[' (by decide) (by decide) (by decide) (by decide)
  have hclose := hbracket ']' (by decide) (by decide) (by decide) (by decide)
  have hnotBoth : ¬ ('[' ∈ a.host ∧ ']' ∈ a.host) := by
    rintro ⟨h₁, h₂⟩
    exact (SplitResult.hostinfo_spec a.parts).2.2
      ⟨h.hosted.mem_uncased (by decide) h₁, h.hosted.mem_uncased (by decide) h₂⟩
  refine normalizeChars_unread hprint h.hosted.isScheme.2 hstrip ?_
  rw [hopen, hclose]
  by_cases h₁ : '[' ∈ a.host
  · exact Or.inl fun heq => hnotBoth ⟨h₁, heq.mp h₁⟩
  · by_cases h₂ : ']' ∈ a.host
    · exact Or.inl fun heq => h₁ (heq.mpr h₂)
    · obtain hone | hone | hcolon := hunread
      · exact absurd hone h₁
      · exact absurd hone h₂
      · refine Or.inr ⟨fun hat => (h.hosted.hostText_chars a.shown _ (hmem _ hat)).2.2 rfl, h₁, ?_⟩
        have hfirst := hhead ':' (by decide)
          ((hostText_head a.shown h.hosted.host_ne_nil (by decide)).mpr hcolon)
        cases hnetloc : netloc with
        | nil => rfl
        | cons c rest =>
          rw [hnetloc] at hfirst
          rw [Option.some.inj hfirst]
          have hsplit : Str.partition ':' (':' :: rest) = ([], true, rest) :=
            Str.partition_append List.not_mem_nil
          rw [hsplit]

-- Otherwise the second key is made of what is read of the first.
theorem key_read (h : Address.Of url a) {netloc path : List Char}
    (hstrip : Str.strip Str.isSpace (key a) =
      urlunsplit a.parts.scheme netloc path (canonicalQuery a.parts.query))
    (hprint : Printable a.parts.scheme netloc path (canonicalQuery a.parts.query))
    (hplain : Plain netloc) (hname : (Str.partition ':' netloc).1 ≠ []) :
    normalizeChars (key a) = .ok (key a) ↔
      (∃ port, SplitResult.port ⟨a.parts.scheme, netloc, path, canonicalQuery a.parts.query, []⟩ =
          .ok port ∧
        hostText (Str.partition ':' netloc).1 (shown a.parts.scheme port) =
          hostText a.host a.shown) ∧
      canonicalPath path = canonicalPath a.parts.path := by
  have hlower := h.hosted.isScheme.2
  have hhosted := hplain.hosted hprint hlower hstrip hname
  cases hport : SplitResult.port
      ⟨a.parts.scheme, netloc, path, canonicalQuery a.parts.query, []⟩ with
  | error e =>
    rw [normalizeChars_hosted hhosted, hport]
    refine iff_of_false (fun heq => by cases heq) ?_
    rintro ⟨⟨_, heq, _⟩, _⟩
    cases heq
  | ok port =>
    have hsecond := hhosted.printable (shown a.parts.scheme port)
    rw [normalizeChars_eq hhosted hport, Except.ok.injEq]
    unfold key
    dsimp only at hsecond ⊢
    rw [urlunsplit_inj hsecond (h.hosted.printable a.shown), canonicalQuery_canonicalQuery]
    constructor
    · rintro ⟨_, htext, hpath, _⟩
      exact ⟨⟨port, rfl, htext⟩, hpath⟩
    · rintro ⟨⟨other, heq, htext⟩, hpath⟩
      cases heq
      exact ⟨rfl, htext, hpath, rfl⟩

-- The keys that are normalized to themselves: those of a host that is not read,
-- of spaces alone, and those whose path and host are read as they are written.
def Repeats (a : Address) : Prop :=
  Unread a.host ∨
  (Slashes a.parts.path ∧ keptFields a.parts.query = [] ∧ a.shown = none ∧
    ∀ c ∈ a.host, Str.isSpace c) ∨
  (¬ Slashes a.parts.path ∧
    (keptFields a.parts.query = [] → ∀ c ∈ (trimmed a.parts.path).getLast?, Str.isSpace c = false) ∧
    HostRepeats a.parts.scheme a.host a.shown)

omit [Unicode] [Unicode.Lawful] in
theorem slashes_iff (path : List Char) : Slashes path ↔ canonicalPath path = [] := by
  obtain ⟨h, _, heq⟩ | ⟨h, _, heq⟩ | ⟨h, hne, _, heq⟩ := canonicalPath_cases path
  · exact iff_of_true h heq
  · exact iff_of_false h (by rw [heq]; decide)
  · exact iff_of_false h (by rwa [heq])

omit [Unicode] [Unicode.Lawful] in
theorem isUncased_of_isSpace {c : Char} (h : Str.isSpace c) : isUncased c := decide_eq_true (Or.inr h)

-- What is left of a host that ends in spaces.
theorem hostText_spaces : (hostText a.host a.shown).rdropWhile Str.isSpace = [] ↔
    a.shown = none ∧ ∀ c ∈ a.host, Str.isSpace c := by
  have hlowers := Unicode.lowersTo_lower a.host
  rw [List.rdropWhile_eq_nil_iff]
  cases hshown : a.shown with
  | some n =>
    refine iff_of_false (fun h => ?_) fun h => by cases h.1
    obtain ⟨c, hc⟩ := List.exists_mem_of_ne_nil _ (Nat.toDigits_ne_nil (n := n) (b := 10))
    have hspace := h c (List.mem_append_right _ (List.mem_cons_of_mem _ hc))
    have hascii : Str.isAscii c :=
      isAscii_of_isQuoted (decide_eq_true (Or.inr (Or.inl (toDigits_isDigit hc))))
    have hnot := forall_ascii (p := fun c => isDigit c → Str.isSpace c = false) (by decide +kernel)
      hascii (toDigits_isDigit hc)
    rw [hnot] at hspace
    cases hspace
  | none =>
    change (∀ c ∈ Unicode.lower a.host, Str.isSpace c) ↔ _
    constructor
    · intro h
      have heq := hlowers.eq_of_made fun c hc => isUncased_of_isSpace (h c hc)
      rw [heq] at h
      exact ⟨rfl, h⟩
    · rintro ⟨_, h⟩
      rwa [hlowers.eq_of_uncased fun c hc => isUncased_of_isSpace (h c hc)]

omit [Unicode.Lawful] in
theorem Address.Of.shown_le (h : Address.Of url a) :
    ∀ n, a.shown = some n → n ≤ 65535 ∧ some n ≠ defaultPort a.parts.scheme := by
  intro n hn
  obtain ⟨hport, hdefault⟩ := shown_eq_some.mp hn
  exact ⟨port_le (hport ▸ h.port), hdefault⟩

theorem key_again (h : Address.Of url a) :
    normalizeChars (key a) = .ok (key a) ↔ Repeats a := by
  by_cases hunread : Unread a.host
  · exact iff_of_true (key_unread h hunread) (Or.inl hunread)
  obtain ⟨netloc, path, hstrip, hprint, hcases⟩ := strip_key h
  have hplain := h.hosted.plain a.shown hunread fun c hc => hc
  have hname := h.hosted.name_ne_nil a.shown hunread
  obtain ⟨hkept, rfl, rfl⟩ | ⟨hkept, rest, rfl, hpath, rfl⟩ | ⟨hkept, rfl, hpath, rfl⟩ := hcases
  · rw [key_read h hstrip hprint hplain hname, reread_iff hplain h.shown_le, canonicalPath_again]
    unfold Repeats
    simp only [hunread, hkept, false_and, and_false, false_or, false_implies, true_and]
    exact and_comm
  · have hslashes : ¬ Slashes a.parts.path := by
      rw [slashes_iff, hpath]
      exact List.cons_ne_nil _ _
    rw [key_read h hstrip hprint hplain hname, reread_iff hplain h.shown_le, hpath,
      canonicalPath_stripped hpath]
    unfold Repeats
    simp only [hunread, hkept, hslashes, false_and, false_or, not_false_eq_true, true_and,
      forall_const]
    exact and_comm
  · have hslashes : Slashes a.parts.path := (slashes_iff _).mpr hpath
    have hrepeats : Repeats a ↔ a.shown = none ∧ ∀ c ∈ a.host, Str.isSpace c := by
      unfold Repeats
      simp [hunread, hkept, hslashes]
    rw [hrepeats, ← hostText_spaces]
    by_cases hnil : (hostText a.host a.shown).rdropWhile Str.isSpace = []
    · refine iff_of_true (normalizeChars_unread hprint h.hosted.isScheme.2 hstrip (Or.inr ?_)) hnil
      rw [hnil]
      exact ⟨List.not_mem_nil, List.not_mem_nil, rfl⟩
    · refine iff_of_false ?_ hnil
      have hprefix := List.rdropWhile_prefix Str.isSpace (hostText a.host a.shown)
      have hfirst : (Str.partition ':' ((hostText a.host a.shown).rdropWhile Str.isSpace)).1 ≠ [] := by
        refine before_ne_nil hnil fun hhead => hunread (Or.inr (Or.inr ?_))
        refine (hostText_head a.shown h.hosted.host_ne_nil (by decide)).mp ?_
        obtain ⟨tail, htail⟩ := hprefix
        rw [← htail, List.head?_append, hhead]
        rfl
      rw [key_read h hstrip hprint (h.hosted.plain a.shown hunread fun c hc => hprefix.mem hc) hfirst, hpath]
      rintro ⟨_, hroot⟩
      exact absurd hroot (by decide)

-- Normalizing a second time changes nothing exactly for those keys.
theorem normalizeUrl_idempotent {url key : String} (h : normalizeUrl url = .ok key) :
    normalizeUrl key = .ok key ↔ ∀ a, Address.Of url.toList a → Repeats a := by
  cases hchars : normalizeChars url.toList with
  | error e =>
    unfold normalizeUrl at h
    rw [hchars] at h
    cases h
  | ok chars =>
    have hkey : key = String.ofList chars := by
      unfold normalizeUrl at h
      rw [hchars] at h
      cases h
      rfl
    have hagain : normalizeUrl key = .ok key ↔ normalizeChars chars = .ok chars := by
      unfold normalizeUrl
      rw [hkey, String.toList_ofList]
      cases normalizeChars chars with
      | error e => exact iff_of_false (fun heq => by cases heq) fun heq => by cases heq
      | ok other =>
        change Except.ok _ = Except.ok _ ↔ _
        rw [Except.ok.injEq, Except.ok.injEq, String.ofList_inj]
    rw [hagain]
    by_cases hnamed : ∃ a, Address.Of url.toList a
    · obtain ⟨a, ha⟩ := hnamed
      have heq : chars = Agent.key a := by
        have hok := normalizeChars_eq ha.hosted ha.port
        rw [hchars] at hok
        exact Except.ok.inj hok
      rw [heq, key_again ha]
      constructor
      · intro hrepeats b hb
        rwa [hb.unique ha]
      · intro hall
        exact hall a ha
    · refine iff_of_true ?_ fun a ha => absurd ⟨a, ha⟩ hnamed
      have hunhosted : ∀ parts host, ¬ Hosted url.toList parts host := by
        intro parts host hhosted
        cases hport : parts.port with
        | error e =>
          rw [normalizeChars_hosted hhosted, hport] at hchars
          cases hchars
        | ok port => exact hnamed ⟨⟨parts, host, port⟩, hhosted, hport⟩
      have hsame := normalizeChars_unhosted hunhosted
      rw [hchars] at hsame
      cases hsame
      exact hchars

end

theorem normalizeUrl_idempotent_spelled :
    letI := Sample.unicode
    normalizeUrl "https://example.com:443/a/?b=1#c" = .ok "https://example.com/a?b=1" ∧
      (normalizeUrl "https://example.com/a?b=1" = .ok "https://example.com/a?b=1" ↔
        ∀ a, Address.Of "https://example.com:443/a/?b=1#c".toList a → Repeats a) := by
  let := Sample.unicode
  have hkey : normalizeUrl "https://example.com:443/a/?b=1#c" = .ok "https://example.com/a?b=1" := by
    decide +kernel
  exact ⟨hkey, normalizeUrl_idempotent hkey⟩

-- A root that is lost is found the second time, and an address in brackets is
-- read as a port.
theorem normalizeUrl_changes :
    letI := Sample.unicode
    (normalizeUrl "http://example.com//" = .ok "http://example.com" ∧
      normalizeUrl "http://example.com" = .ok "http://example.com/") ∧
    (normalizeUrl "http://[2001:db8::1]/" = .ok "http://2001:db8::1/" ∧
      normalizeUrl "http://2001:db8::1/" =
        .error (valueError "Port could not be cast to integer value as 'db8::1'")) := by
  decide +kernel

end AgentBoilerplate.Agent
