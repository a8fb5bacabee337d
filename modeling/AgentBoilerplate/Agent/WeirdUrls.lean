import AgentBoilerplate.Agent.Fusion
import AgentBoilerplate.Python.PlainText

namespace AgentBoilerplate.Agent.Weird

open Python PyStr PyUrl Collections

-- What compares URLs, on any string that Python can hold.
def isTracking [Unicode] (name : PyStr) : Bool :=
  let lowered := PyStr.lower name
  (trackingExact.any fun exact => lowered = ofString exact) ∨
    trackingPrefixes.any fun known => (ofString known).isPrefixOf lowered

def defaultPort (scheme : PyStr) : Option Nat :=
  if scheme = ofString "http" then some 80
  else if scheme = ofString "https" then some 443
  else none

def canonicalPath (path : PyStr) : PyStr :=
  let path := if path = [] then ofString "/" else path
  if path.length > 1 ∧ path.getLast? = some (.scalar '/') then
    path.rdropWhile (· = .scalar '/')
  else
    path

-- The fields of a query that are no tracking parameters.
def kept [Unicode] (query : PyStr) : List (PyStr × PyStr) :=
  (parseQsl query).filter fun field => ¬ isTracking field.1

-- Neither the port nor the query is read inside the `try`.
def normalizeUrl [Unicode] (url : PyStr) : Except PyError PyStr :=
  match urlsplit (PyStr.strip Str.isSpace url) with
  | .error _ => .ok url
  | .ok parts =>
      match parts.hostname with
      | none => .ok url
      | some host =>
          if parts.scheme = [] then
            .ok url
          else do
            let scheme := PyStr.lower parts.scheme
            let netloc := PyStr.lower host
            let port ← parts.port
            let netloc := match port with
              | none => netloc
              | some port =>
                  if some port = defaultPort scheme then netloc
                  else netloc ++ .scalar ':' :: ofChars (Nat.toDigits 10 port)
            let query ← urlencode
              ((kept parts.query).insertionSort fun a b => PyStr.pairLe a b)
            return urlunsplit scheme netloc (canonicalPath parts.path) query

-- `Raw` is what a provider sends besides.
structure RawSearchHit (Raw : Type) where
  title : PyStr
  url : PyStr
  snippet : PyStr
  publishedAt : Option DateTime
  raw : Raw

structure ResearchResult (Raw : Type) where
  title : PyStr
  url : PyStr
  snippet : PyStr
  publishedAt : Option DateTime
  dateConfidence : DateConfidence
  eventType : EventType
  summary : Option PyStr
  isNew : Bool
  raw : Raw

variable {Raw : Type}

def flagNew [Unicode] (results : List (ResearchResult Raw)) (seenUrls : List PyStr) :
    Except PyError (List (ResearchResult Raw)) := do
  let seenKeys ← seenUrls.mapM normalizeUrl
  results.mapM fun result => do
    let key ← normalizeUrl result.url
    return { result with isNew := key ∉ seenKeys }

-- One hit of the deduplication: the keys seen and the hits kept.
def dedupeHit [Unicode] (state : List PyStr × List (RawSearchHit Raw)) (hit : RawSearchHit Raw) :
    Except PyError (List PyStr × List (RawSearchHit Raw)) := do
  let key ← normalizeUrl hit.url
  if key ∉ state.1 then
    return (state.1 ++ [key], state.2 ++ [hit])
  else
    return state

def dedupeHits [Unicode] (hits : List (RawSearchHit Raw)) :
    Except PyError (List (RawSearchHit Raw)) := do
  let state ← hits.foldlM dedupeHit ([], [])
  return state.2

-- An entry of the dictionaries `scores` and `best`, which have the same keys.
structure Fused (Raw : Type) where
  key : PyStr
  score : ℚ
  best : RawSearchHit Raw

-- The richer hit stays: the one with a date.
def fuse (fused : List (Fused Raw)) (key : PyStr) (score : ℚ) (hit : RawSearchHit Raw) :
    List (Fused Raw) :=
  if fused.any fun entry => entry.key = key then
    fused.map fun entry =>
      if entry.key = key then
        { entry with
          score := entry.score + score
          best :=
            if hit.publishedAt.isSome ∧ entry.best.publishedAt.isNone then hit else entry.best }
      else
        entry
  else
    fused ++ [⟨key, score, hit⟩]

-- One hit of a provider, at its rank.
def fuseHit [Unicode] (k : Nat) (fused : List (Fused Raw)) (ranked : RawSearchHit Raw × Nat) :
    Except PyError (List (Fused Raw)) := do
  let key ← normalizeUrl ranked.1.url
  return fuse fused key (1 / (k + ranked.2)) ranked.1

-- `scores[normalize_url(h.url)]`.
def fusedScore [Unicode] (fused : List (Fused Raw)) (hit : RawSearchHit Raw) :
    Except PyError ℚ := do
  let key ← normalizeUrl hit.url
  match fused.find? fun entry => entry.key = key with
  | some entry => return entry.score
  | none => throw ⟨"KeyError", ofChars (PyStr.repr key)⟩

def fuseByRrf [Unicode] (resultsPerProvider : List (List (RawSearchHit Raw))) (k : Nat := 60) :
    Except PyError (List (RawSearchHit Raw)) := do
  let fused ← (resultsPerProvider.flatMap fun hits => hits.zipIdx 1).foldlM (fuseHit k) []
  let scored ← fused.mapM fun entry => do
    let score ← fusedScore fused entry.best
    return (score, entry.best)
  return (scored.insertionSort fun a b => b.1 ≤ a.1).map Prod.snd

theorem defaultPort_ofChars (scheme : List Char) :
    defaultPort (ofChars scheme) = Agent.defaultPort scheme := by
  have hscheme : ∀ known : String, ofChars scheme = ofString known ↔ scheme = known.toList :=
    fun known => ofChars_injective.eq_iff
  unfold defaultPort Agent.defaultPort
  simp only [hscheme]

theorem canonicalPath_ofChars (path : List Char) :
    canonicalPath (ofChars path) = ofChars (Agent.canonicalPath path) := by
  have hpath : (if ofChars path = [] then ofString "/" else ofChars path) =
      ofChars (if path = [] then ['/'] else path) := by
    cases path <;> rfl
  unfold canonicalPath Agent.canonicalPath
  rw [hpath]
  generalize (if path = [] then ['/'] else path) = path
  have hlast : (ofChars path).getLast? = some (.scalar '/') ↔ path.getLast? = some '/' := by
    simp [ofChars, List.getLast?_map]
  have hslash : (fun c : CodePoint => decide (c = .scalar '/')) =
      CodePoint.satisfies fun c => c = '/' := by
    funext c
    cases c <;> simp [CodePoint.satisfies]
  simp only [hlast, length_ofChars]
  split
  · rw [hslash, List.rdropWhile, reverse_ofChars, dropWhile_ofChars, reverse_ofChars]
    rfl
  · rfl

theorem pairLe_ofField (a b : List Char × List Char) :
    PyStr.pairLe (ofField a) (ofField b) = Str.pairLe a b := by
  unfold PyStr.pairLe Str.pairLe ofField
  simp only [le_ofChars, ofChars_injective.eq_iff]

section

variable [Unicode]

-- The port of a URL is absent, or a decimal number in range that `int` reads.
def PortReadable (parts : PyUrl.SplitResult) : Prop :=
  ∀ port ∈ parts.hostinfo.2, port.all (CodePoint.satisfies UrlParse.isDigit) = true ∧
    port.length ≤ 4300 ∧ Nat.ofDigitChars 10 port.scalars 0 ≤ 65535

-- So is the port of a URL that is split into a scheme, a host and the rest, and no
-- surrogate is in the fields of its query that stay.
def Normalizable (url : PyStr) : Prop :=
  ∀ parts, urlsplit (PyStr.strip Str.isSpace url) = .ok parts → parts.scheme ≠ [] →
    parts.hostname ≠ none → PortReadable parts ∧
      ∀ field ∈ kept parts.query, field.1.Encodable ∧ field.2.Encodable

theorem port_returns (parts : PyUrl.SplitResult) : Returns parts.port ↔ PortReadable parts := by
  unfold SplitResult.port PortReadable
  cases parts.hostinfo.2 with
  | none => exact iff_of_true (returns_ok none) (fun port hport => by cases hport)
  | some port =>
      simp only [Option.mem_some_iff, forall_eq']
      by_cases hdigits : port.all (CodePoint.satisfies UrlParse.isDigit) = true
      · rw [if_neg (not_not.mpr hdigits)]
        by_cases hlength : port.length > 4300
        · rw [if_pos hlength]
          exact iff_of_false (not_returns_error _) fun h => absurd h.2.1 (by omega)
        · rw [if_neg hlength]
          by_cases hrange : Nat.ofDigitChars 10 port.scalars 0 > 65535
          · rw [if_pos hrange]
            exact iff_of_false (not_returns_error _) fun h => absurd h.2.2 (by omega)
          · rw [if_neg hrange]
            exact iff_of_true (returns_ok _) ⟨hdigits, by omega, by omega⟩
      · rw [if_pos hdigits]
        exact iff_of_false (not_returns_error _) fun h => hdigits h.1

-- The order of the fields does not matter to their quoting.
theorem query_returns (query : PyStr) :
    Returns (urlencode ((kept query).insertionSort fun a b => PyStr.pairLe a b)) ↔
      ∀ field ∈ kept query, field.1.Encodable ∧ field.2.Encodable := by
  rw [urlencode_returns]
  exact forall_congr' fun field => imp_congr_left (List.mem_insertionSort _)

-- The port and the query are read outside the `try`.
theorem normalizeUrl_returns (url : PyStr) : Returns (normalizeUrl url) ↔ Normalizable url := by
  unfold normalizeUrl Normalizable
  cases urlsplit (PyStr.strip Str.isSpace url) with
  | error e => exact iff_of_true (returns_ok _) fun parts h => by cases h
  | ok parts =>
      dsimp only
      cases hhost : parts.hostname with
      | none =>
          refine iff_of_true (returns_ok _) fun other h _ hhost' => ?_
          cases h
          exact absurd hhost hhost'
      | some host =>
          dsimp only
          by_cases hscheme : parts.scheme = []
          · rw [if_pos hscheme]
            refine iff_of_true (returns_ok _) fun other h hscheme' => ?_
            cases h
            exact absurd hscheme hscheme'
          · rw [if_neg hscheme, returns_bind]
            constructor
            · intro ⟨port, hport, hrest⟩ other h _ _
              cases h
              obtain ⟨query, hquery, -⟩ := (returns_bind _ _).mp hrest
              exact ⟨(port_returns parts).mp ⟨port, hport⟩, (query_returns _).mp ⟨query, hquery⟩⟩
            · intro h
              obtain ⟨hported, hencodable⟩ := h parts rfl hscheme (by simp [hhost])
              obtain ⟨port, hport⟩ := (port_returns parts).mpr hported
              obtain ⟨query, hquery⟩ := (query_returns _).mpr hencodable
              exact ⟨port, hport, (returns_bind _ _).mpr ⟨query, hquery, returns_ok _⟩⟩

theorem isTracking_ofChars (name : List Char) :
    isTracking (ofChars name) = Agent.isTracking name := by
  unfold isTracking Agent.isTracking
  rw [lower_ofChars]
  have hexact : ∀ exact : String, ofChars (Unicode.lower name) = ofString exact ↔
      Unicode.lower name = exact.toList := fun exact => ofChars_injective.eq_iff
  have hprefix : ∀ known : String, (ofString known).isPrefixOf (ofChars (Unicode.lower name)) =
      known.toList.isPrefixOf (Unicode.lower name) := fun known => isPrefixOf_ofChars _ _
  simp only [hexact, hprefix]

-- A query without surrogates is always written.
theorem canonicalQuery_ofChars (query : List Char) :
    urlencode ((kept (ofChars query)).insertionSort fun a b => PyStr.pairLe a b) =
      .ok (ofChars (canonicalQuery query)) := by
  have hkept : (fun field => decide ¬ isTracking (ofField field).1 = true) =
      fun field : List Char × List Char => decide ¬ Agent.isTracking field.1 = true := by
    funext field
    rw [ofField, isTracking_ofChars]
  unfold kept canonicalQuery
  rw [parseQsl_ofChars, List.filter_map]
  change urlencode (List.insertionSort _ (List.map _ (List.filter
    (fun field => decide ¬ isTracking (ofField field).1 = true) _))) = _
  rw [hkept, ← List.map_insertionSort (fun a b => Str.pairLe a b = true)
    (fun a b => PyStr.pairLe a b = true) ofField _ fun a _ b _ => by rw [pairLe_ofField],
    urlencode_ofFields]

-- A URL without surrogates is compared as the characters that it is.
theorem normalizeUrl_ofString (url : String) :
    normalizeUrl (ofString url) = lifted ofString (Agent.normalizeUrl url) := by
  have hsame : (Except.ok (ofString url) : Except PyError PyStr) =
      lifted ofString
        ((Except.ok url.toList : Except PyException (List Char)).map String.ofList) := by
    rw [Except.map, String.ofList_toList]
    rfl
  unfold normalizeUrl Agent.normalizeUrl normalizeChars
  unfold ofString at hsame ⊢
  rw [strip_ofChars, urlsplit_ofChars]
  cases UrlParse.urlsplit (Str.strip Str.isSpace url.toList) with
  | error exc => exact hsame
  | ok parts =>
      simp only [lifted]
      rw [hostname_ofChars]
      cases parts.hostname with
      | none => exact hsame
      | some host =>
          have hscheme : (SplitResult.ofChars parts).scheme = [] ↔ parts.scheme = [] :=
            List.map_eq_nil_iff
          simp only [Option.map_some]
          by_cases h : parts.scheme = []
          · rw [if_pos (hscheme.mpr h), if_pos h]
            exact hsame
          · rw [if_neg fun hempty => h (hscheme.mp hempty), if_neg h, port_ofChars]
            cases parts.port with
            | error exc => rfl
            | ok port =>
                change (do
                  let query ← urlencode
                    ((kept (ofChars parts.query)).insertionSort fun a b => PyStr.pairLe a b)
                  return urlunsplit (PyStr.lower (ofChars parts.scheme)) _
                    (canonicalPath (ofChars parts.path)) query) =
                  Except.ok (ofString (String.ofList (UrlParse.urlunsplit
                    (Unicode.lower parts.scheme) _ (Agent.canonicalPath parts.path)
                    (canonicalQuery parts.query))))
                rw [canonicalQuery_ofChars, canonicalPath_ofChars, lower_ofChars, ofString_ofList,
                  ← urlunsplit_ofChars]
                refine congrArg (fun netloc => Except.ok (urlunsplit _ netloc _ _)) ?_
                cases port with
                | none => exact lower_ofChars host
                | some port =>
                    change (if some port = defaultPort (PyStr.lower (ofChars parts.scheme)) then
                      PyStr.lower (ofChars host) else
                      PyStr.lower (ofChars host) ++ .scalar ':' :: ofChars (Nat.toDigits 10 port)) =
                      ofChars (if some port = Agent.defaultPort (Unicode.lower parts.scheme) then
                        Unicode.lower host else Unicode.lower host ++ [':'] ++ Nat.toDigits 10 port)
                    rw [lower_ofChars, lower_ofChars, defaultPort_ofChars]
                    split
                    · rfl
                    · rw [ofChars_append, ofChars_append, List.append_assoc]
                      rfl

theorem normalizeUrl_returns_ofString (url : String) :
    Returns (Agent.normalizeUrl url) ↔ Normalizable (ofString url) := by
  rw [← normalizeUrl_returns, normalizeUrl_ofString]
  cases Agent.normalizeUrl url with
  | ok key => exact iff_of_true (returns_ok _) (returns_ok _)
  | error exc => exact iff_of_false (not_returns_error _) (not_returns_error _)

theorem dedupeHits_returns (hits : List (RawSearchHit Raw)) :
    Returns (dedupeHits hits) ↔ ∀ hit ∈ hits, Normalizable hit.url := by
  have hstep : ∀ (state : List PyStr × List (RawSearchHit Raw)) (hit : RawSearchHit Raw), True →
      (Returns (dedupeHit state hit) ↔ Normalizable hit.url) := by
    intro state hit _
    rw [← normalizeUrl_returns]
    unfold dedupeHit
    rw [returns_bind]
    refine exists_congr fun key => and_iff_left_of_imp fun _ => ?_
    split <;> exact returns_ok _
  have hfold := foldlM_returns hstep (fun _ _ _ _ _ => trivial) hits (s := ([], [])) trivial
  rw [← hfold]
  unfold dedupeHits
  rw [returns_bind]
  exact exists_congr fun state => and_iff_left (returns_ok _)

theorem flagNew_returns (results : List (ResearchResult Raw)) (seenUrls : List PyStr) :
    Returns (flagNew results seenUrls) ↔
      (∀ url ∈ seenUrls, Normalizable url) ∧ ∀ result ∈ results, Normalizable result.url := by
  have hflag : ∀ (seenKeys : List PyStr) (result : ResearchResult Raw),
      Returns (do
        let key ← normalizeUrl result.url
        return { result with isNew := key ∉ seenKeys } : Except PyError (ResearchResult Raw)) ↔
        Normalizable result.url := by
    intro seenKeys result
    rw [← normalizeUrl_returns, returns_bind]
    exact exists_congr fun key => and_iff_left (returns_ok _)
  unfold flagNew
  rw [returns_bind]
  constructor
  · intro ⟨seenKeys, hseen, hresults⟩
    refine ⟨fun url hurl => ?_, fun result hresult => ?_⟩
    · exact (normalizeUrl_returns url).mp ((mapM_returns _ _).mp ⟨seenKeys, hseen⟩ url hurl)
    · exact (hflag seenKeys result).mp ((mapM_returns _ _).mp hresults result hresult)
  · intro ⟨hseen, hresults⟩
    obtain ⟨seenKeys, hkeys⟩ := (mapM_returns normalizeUrl seenUrls).mpr
      fun url hurl => (normalizeUrl_returns url).mpr (hseen url hurl)
    exact ⟨seenKeys, hkeys, (mapM_returns _ _).mpr fun result hresult =>
      (hflag seenKeys result).mpr (hresults result hresult)⟩

-- Every fused entry holds a hit with its key.
def Keyed (fused : List (Fused Raw)) : Prop :=
  ∀ entry ∈ fused, normalizeUrl entry.best.url = .ok entry.key

theorem fuse_keyed {fused : List (Fused Raw)} (h : Keyed fused) {key : PyStr}
    {hit : RawSearchHit Raw} (hkey : normalizeUrl hit.url = .ok key) (score : ℚ) :
    Keyed (fuse fused key score hit) := by
  unfold fuse
  split
  · intro entry hentry
    obtain ⟨old, hold, rfl⟩ := List.mem_map.mp hentry
    by_cases hsame : old.key = key
    · rw [if_pos hsame]
      dsimp only
      split
      · rw [hkey, hsame]
      · exact h old hold
    · rw [if_neg hsame]
      exact h old hold
  · intro entry hentry
    rcases List.mem_append.mp hentry with hold | hnew
    · exact h entry hold
    · rw [List.mem_singleton.mp hnew]
      exact hkey

theorem fuseHit_keyed {k : Nat} {fused later : List (Fused Raw)} {ranked : RawSearchHit Raw × Nat}
    (h : Keyed fused) (hfused : fuseHit k fused ranked = .ok later) : Keyed later := by
  unfold fuseHit at hfused
  cases hkey : normalizeUrl ranked.1.url with
  | error e =>
      rw [hkey] at hfused
      cases hfused
  | ok key =>
      rw [hkey] at hfused
      obtain rfl := Except.ok.inj hfused
      exact fuse_keyed h hkey _

theorem fuseHit_returns (k : Nat) (fused : List (Fused Raw)) (ranked : RawSearchHit Raw × Nat) :
    Returns (fuseHit k fused ranked) ↔ Normalizable ranked.1.url := by
  rw [← normalizeUrl_returns]
  unfold fuseHit
  rw [returns_bind]
  exact exists_congr fun key => and_iff_left (returns_ok _)

-- A fused hit has a score.
theorem fusedScore_returns {fused : List (Fused Raw)} (h : Keyed fused) {entry : Fused Raw}
    (hentry : entry ∈ fused) : Returns (fusedScore fused entry.best) := by
  unfold fusedScore
  rw [h entry hentry]
  change Returns (match fused.find? fun other => other.key = entry.key with
    | some entry => return entry.score
    | none => throw _)
  cases hfound : fused.find? fun other => other.key = entry.key with
  | none =>
      have hnone := List.find?_eq_none.mp hfound entry hentry
      simp at hnone
  | some other => exact returns_ok _

theorem fuseByRrf_returns (resultsPerProvider : List (List (RawSearchHit Raw))) (k : Nat) :
    Returns (fuseByRrf resultsPerProvider k) ↔
      ∀ hits ∈ resultsPerProvider, ∀ hit ∈ hits, Normalizable hit.url := by
  have hempty : Keyed ([] : List (Fused Raw)) := fun entry hentry => by cases hentry
  have hfold := foldlM_returns (fun fused ranked _ => fuseHit_returns k fused ranked)
    (fun _ _ _ h hfused => fuseHit_keyed h hfused)
    (resultsPerProvider.flatMap fun hits => hits.zipIdx 1) hempty
  rw [← forall_ranked (fun hit : RawSearchHit Raw => Normalizable hit.url), ← hfold]
  unfold fuseByRrf
  rw [returns_bind]
  refine exists_congr fun fused => and_iff_left_of_imp fun hfused => ?_
  have hkeyed : Keyed fused :=
    foldlM_keeps (fun _ _ _ h hfused => fuseHit_keyed h hfused) _ hempty hfused
  rw [returns_bind]
  have hscored := (mapM_returns (fun entry : Fused Raw => do
    let score ← fusedScore fused entry.best
    return (score, entry.best)) fused).mpr fun entry hentry => by
      obtain ⟨score, hscore⟩ := fusedScore_returns hkeyed hentry
      exact (returns_bind _ _).mpr ⟨score, hscore, returns_ok _⟩
  obtain ⟨scored, hscored⟩ := hscored
  exact ⟨scored, hscored, returns_ok _⟩

-- A URL fails what compares URLs exactly when its port cannot be read or a field
-- of its query cannot be written.
theorem urls_return (url : PyStr) (hits : List (RawSearchHit Raw))
    (results : List (ResearchResult Raw)) (seenUrls : List PyStr)
    (resultsPerProvider : List (List (RawSearchHit Raw))) (k : Nat) :
    (Returns (normalizeUrl url) ↔ Normalizable url) ∧
      (Returns (dedupeHits hits) ↔ ∀ hit ∈ hits, Normalizable hit.url) ∧
      (Returns (flagNew results seenUrls) ↔
        (∀ url ∈ seenUrls, Normalizable url) ∧ ∀ result ∈ results, Normalizable result.url) ∧
      (Returns (fuseByRrf resultsPerProvider k) ↔
        ∀ hits ∈ resultsPerProvider, ∀ hit ∈ hits, Normalizable hit.url) :=
  ⟨normalizeUrl_returns url, dedupeHits_returns hits, flagNew_returns results seenUrls,
    fuseByRrf_returns resultsPerProvider k⟩

end

namespace Sample

def hit (url : PyStr) : RawSearchHit (List (String × Json)) where
  title := ofString "Lean 4.33.0"
  url := url
  snippet := []
  publishedAt := none
  raw := []

end Sample

-- A port that is out of range, and half of a surrogate pair in a query.
theorem urls_raise :
    letI := Agent.Sample.unicode
    let badPort := ofString "https://ex.com:99999/a"
    let halfPair := ofString "https://ex.com/?q=" ++ [.surrogate 0]
    normalizeUrl badPort =
        .error (PyStr.valueError (ofString "Port out of range 0-65535")) ∧
      normalizeUrl halfPair = .error ⟨"UnicodeEncodeError", ofString
        "'utf-8' codec can't encode character '\\ud800' in position 0: surrogates not allowed"⟩ ∧
      ∀ url ∈ [badPort, halfPair],
        ¬ Returns (dedupeHits [Sample.hit url]) ∧ ¬ Returns (fuseByRrf [[Sample.hit url]]) := by
  let := Agent.Sample.unicode
  intro badPort halfPair
  have hport : normalizeUrl badPort =
      .error (PyStr.valueError (ofString "Port out of range 0-65535")) := by
    decide +kernel
  have hpair : normalizeUrl halfPair = .error ⟨"UnicodeEncodeError", ofString
      "'utf-8' codec can't encode character '\\ud800' in position 0: surrogates not allowed"⟩ := by
    decide +kernel
  refine ⟨hport, hpair, fun url hurl => ?_⟩
  have hraises : ¬ Normalizable url := by
    rw [← normalizeUrl_returns]
    simp only [List.mem_cons, List.not_mem_nil, or_false] at hurl
    rcases hurl with rfl | rfl
    · rw [hport]
      exact not_returns_error _
    · rw [hpair]
      exact not_returns_error _
  refine ⟨fun hreturns => hraises ?_, fun hreturns => hraises ?_⟩
  · exact (dedupeHits_returns _).mp hreturns (Sample.hit url) List.mem_cons_self
  · exact (fuseByRrf_returns _ _).mp hreturns [Sample.hit url] List.mem_cons_self (Sample.hit url)
      List.mem_cons_self

end AgentBoilerplate.Agent.Weird
