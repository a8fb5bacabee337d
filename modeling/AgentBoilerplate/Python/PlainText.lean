import AgentBoilerplate.Python.CodePoints
import Mathlib.Data.List.SplitBy
import Mathlib.Data.List.TakeDrop

namespace AgentBoilerplate.Python

-- A string without surrogates is a list of characters, and treated as one.
namespace PyStr

variable (s : List Char)

theorem scalar_mem_ofChars (c : Char) : CodePoint.scalar c ∈ ofChars s ↔ c ∈ s := by
  simp [ofChars]

theorem ofChars_injective : Function.Injective ofChars :=
  List.map_injective_iff.mpr fun _ _ h => CodePoint.scalar.inj h

theorem ofChars_append (first second : List Char) :
    ofChars (first ++ second) = ofChars first ++ ofChars second := List.map_append

theorem ofString_append (first second : String) :
    ofString (first ++ second) = ofString first ++ ofString second := by
  unfold ofString
  rw [String.toList_append, ofChars_append]

theorem ofChars_eq_nil : ofChars s = [] ↔ s = [] := List.map_eq_nil_iff

theorem length_ofChars : (ofChars s).length = s.length := List.length_map _

theorem head?_ofChars (c : Char) : (ofChars s).head? = some (.scalar c) ↔ s.head? = some c := by
  cases s <;> simp [ofChars]

theorem drop_ofChars (n : Nat) : (ofChars s).drop n = ofChars (s.drop n) := List.map_drop.symm

theorem ofString_ofList : ofString (String.ofList s) = ofChars s := by
  unfold ofString
  rw [String.toList_ofList]

theorem scalars_ofChars : (ofChars s).scalars = s := by
  induction s with
  | nil => rfl
  | cons c s ih => exact congrArg (c :: ·) ih

theorem satisfies_ofChars (p : Char → Bool) :
    (ofChars s).all (CodePoint.satisfies p) = s.all p := List.all_map

theorem readable_ofChars (p : List Char → Bool) : readable p (ofChars s) = p s := by
  unfold readable
  rw [scalars_ofChars]
  simp [ofChars, CodePoint.isSurrogate]

theorem mapRuns_ofChars (f : List Char → List Char) (run : List Char) :
    mapRuns f run (ofChars s) = ofChars (f (run ++ s)) := by
  induction s generalizing run with
  | nil =>
      rw [List.append_nil]
      rfl
  | cons c s ih =>
      change mapRuns f (run ++ [c]) (ofChars s) = _
      rw [ih, List.append_assoc]
      rfl

theorem lower_ofChars [Unicode] : lower (ofChars s) = ofChars (Unicode.lower s) :=
  mapRuns_ofChars s Unicode.lower []

theorem dropWhile_ofChars (p : Char → Bool) :
    (ofChars s).dropWhile (CodePoint.satisfies p) = ofChars (s.dropWhile p) := List.dropWhile_map

theorem reverse_ofChars : (ofChars s).reverse = ofChars s.reverse := List.map_reverse.symm

theorem strip_ofChars (p : Char → Bool) : strip p (ofChars s) = ofChars (Str.strip p s) := by
  unfold strip Str.strip List.rdropWhile
  rw [dropWhile_ofChars, reverse_ofChars, dropWhile_ofChars, reverse_ofChars]

def ofSplit (parts : List Char × Bool × List Char) : PyStr × Bool × PyStr :=
  (ofChars parts.1, parts.2.1, ofChars parts.2.2)

theorem partition_ofChars (sep : Char) :
    partition sep (ofChars s) = ofSplit (Str.partition sep s) := by
  induction s with
  | nil => rfl
  | cons c s ih =>
      change partition sep (.scalar c :: ofChars s) = _
      rw [partition, Str.partition, ih]
      by_cases h : c = sep
      · rw [if_pos (congrArg _ h), if_pos h]
        rfl
      · rw [if_neg fun heq => h (CodePoint.scalar.inj heq), if_neg h]
        rfl

theorem rpartition_ofChars (sep : Char) :
    rpartition sep (ofChars s) = ofSplit (Str.rpartition sep s) := by
  unfold rpartition Str.rpartition
  rw [reverse_ofChars, partition_ofChars]
  obtain ⟨after, found, before⟩ := Str.partition sep s.reverse
  cases found
  · rfl
  · simp only [ofSplit, reverse_ofChars]
    rfl

theorem remove_ofChars (old : List Char) :
    remove old (ofChars s) = ofChars (Str.remove old s) := by
  unfold remove Str.remove ofChars
  rw [List.filter_map]
  congr 2
  funext c
  simp [CodePoint.satisfies]

theorem replace_ofChars (old new : Char) :
    replace old new (ofChars s) = ofChars (Str.replace old new s) := by
  unfold replace Str.replace ofChars
  rw [List.map_map, List.map_map]
  refine List.map_congr_left fun c _ => ?_
  by_cases h : c = old <;> simp [h]

theorem le_ofChars (a b : List Char) : le (ofChars a) (ofChars b) = Str.le a b := by
  induction a generalizing b with
  | nil => rfl
  | cons x a ih =>
      cases b with
      | nil => rfl
      | cons y b =>
          change le (.scalar x :: ofChars a) (.scalar y :: ofChars b) = _
          rw [le, Str.le, ih]
          by_cases h : x = y
          · rw [if_pos (congrArg _ h), if_pos h]
          · rw [if_neg fun heq => h (CodePoint.scalar.inj heq), if_neg h]
            exact decide_eq_decide.mpr UInt32.lt_iff_toNat_lt.symm

theorem intercalate_ofChars (sep : List Char) (parts : List (List Char)) :
    (ofChars sep).intercalate (parts.map ofChars) = ofChars (sep.intercalate parts) := by
  induction parts with
  | nil => rfl
  | cons part parts ih =>
      cases parts with
      | nil => simp [List.intercalate]
      | cons next parts =>
          simp only [List.map_cons, List.intercalate_cons_cons] at ih ⊢
          rw [ih, ofChars_append, ofChars_append]

theorem isPrefixOf_ofChars (known : List Char) :
    (ofChars known).isPrefixOf (ofChars s) = known.isPrefixOf s := by
  induction known generalizing s with
  | nil => simp [ofChars]
  | cons c known ih =>
      cases s with
      | nil => rfl
      | cons d s =>
          change (CodePoint.scalar c == .scalar d && (ofChars known).isPrefixOf (ofChars s)) = _
          rw [ih, List.isPrefixOf]
          congr 1
          rw [Bool.eq_iff_iff, beq_iff_eq, beq_iff_eq, CodePoint.scalar.injEq]

theorem repr_ofChars [Unicode] : repr (ofChars s) = Str.repr s := by
  unfold repr Str.repr
  dsimp only
  simp only [scalar_mem_ofChars]
  rw [ofChars, List.flatMap_map]
  rfl

theorem encode_ofChars : encode (ofChars s) = .ok (Utf8.encode s) := by
  have hnone : (ofChars s).findIdx? CodePoint.isSurrogate = none := by
    rw [List.findIdx?_eq_none_iff]
    intro c hc
    obtain ⟨c, -, rfl⟩ := List.mem_map.mp hc
    rfl
  unfold encode
  rw [hnone, scalars_ofChars]

end PyStr

open PyStr

def PyException.raised (exc : PyException) : PyError := ⟨exc.type, ofString exc.message⟩

-- The same result, of strings of code points.
def lifted {α β : Type} (f : α → β) : Except PyException α → Except PyError β
  | .ok value => .ok (f value)
  | .error exc => .error exc.raised

namespace PyUrl

variable (s : List Char)

def SplitResult.ofChars (parts : UrlParse.SplitResult) : SplitResult where
  scheme := PyStr.ofChars parts.scheme
  netloc := PyStr.ofChars parts.netloc
  path := PyStr.ofChars parts.path
  query := PyStr.ofChars parts.query
  fragment := PyStr.ofChars parts.fragment

theorem isIpv6_ofChars : isIpv6 (PyStr.ofChars s) = UrlParse.isIpv6 s := by
  unfold isIpv6 UrlParse.isIpv6
  rw [partition_ofChars]
  obtain ⟨address, found, scope⟩ := Str.partition '%' s
  simp only [ofSplit, readable_ofChars, scalar_mem_ofChars, ne_eq, ofChars_eq_nil]

theorem isIpvFuture_ofChars : isIpvFuture (PyStr.ofChars s) = UrlParse.isIpvFuture s := by
  unfold isIpvFuture UrlParse.isIpvFuture
  simp only [drop_ofChars, dropWhile_ofChars, head?_ofChars, length_ofChars, scalar_mem_ofChars,
    ne_eq, ofChars_eq_nil]

theorem checkBracketedHost_ofChars [Unicode] :
    checkBracketedHost (PyStr.ofChars s) = lifted id (UrlParse.checkBracketedHost s) := by
  unfold checkBracketedHost UrlParse.checkBracketedHost
  simp only [head?_ofChars, isIpvFuture_ofChars, isIpv6_ofChars, readable_ofChars, repr_ofChars]
  split
  · split <;> rfl
  split
  · rfl
  split
  · rfl
  · simp only [lifted, PyException.raised, Python.valueError, PyStr.valueError, ofString_append,
      ofString_ofList]

theorem checkBracketedNetloc_ofChars [Unicode] :
    checkBracketedNetloc (PyStr.ofChars s) = lifted id (UrlParse.checkBracketedNetloc s) := by
  unfold checkBracketedNetloc UrlParse.checkBracketedNetloc
  rw [rpartition_ofChars]
  obtain ⟨userinfo, at_, host⟩ := Str.rpartition '@' s
  simp only [ofSplit, partition_ofChars, head?_ofChars, ne_eq, ofChars_eq_nil,
    checkBracketedHost_ofChars]
  split
  · split
    · rfl
    split <;> rfl
  · rfl

theorem checkNetloc_ofChars [Unicode] :
    checkNetloc (PyStr.ofChars s) = lifted id (UrlParse.checkNetloc s) := by
  unfold checkNetloc UrlParse.checkNetloc PyStr.nfkc
  simp only [remove_ofChars, mapRuns_ofChars, List.nil_append, satisfies_ofChars,
    ofChars_injective.eq_iff, scalar_mem_ofChars]
  split
  · rfl
  split
  · simp only [lifted, PyException.raised, Python.valueError, PyStr.valueError, ofString_append,
      ofString_ofList]
  · rfl

theorem splitNetloc_ofChars : splitNetloc (PyStr.ofChars s) =
    (PyStr.ofChars (UrlParse.splitNetloc s).1, PyStr.ofChars (UrlParse.splitNetloc s).2) := by
  unfold splitNetloc UrlParse.splitNetloc PyStr.ofChars
  rw [List.span_eq_takeWhile_dropWhile, List.span_eq_takeWhile_dropWhile, List.takeWhile_map,
    List.dropWhile_map]
  simp [Function.comp_def, CodePoint.satisfies]

theorem splitScheme_ofChars [Unicode] : splitScheme (PyStr.ofChars s) =
    (PyStr.ofChars (UrlParse.splitScheme s).1, PyStr.ofChars (UrlParse.splitScheme s).2) := by
  have hhead : ∀ l : List Char,
      ((PyStr.ofChars l).head?.map (CodePoint.satisfies UrlParse.isAlpha)).getD false =
        (l.head?.map UrlParse.isAlpha).getD false := by
    intro l
    cases l <;> rfl
  unfold splitScheme UrlParse.splitScheme
  rw [partition_ofChars]
  obtain ⟨scheme, found, rest⟩ := Str.partition ':' s
  simp only [ofSplit, hhead, satisfies_ofChars, lower_ofChars]
  split <;> rfl

theorem urlsplit_ofChars [Unicode] :
    urlsplit (PyStr.ofChars s) = lifted SplitResult.ofChars (UrlParse.urlsplit s) := by
  have hslashes : ∀ l : List Char, (PyStr.ofChars l).take 2 = ofString "//" ↔
      l.take 2 = ['/', '/'] := by
    intro l
    have hslashes : ofString "//" = PyStr.ofChars ['/', '/'] := rfl
    rw [hslashes, PyStr.ofChars, ← List.map_take]
    exact ofChars_injective.eq_iff
  have hnetloc : ∀ l : List Char, (if (PyStr.ofChars l).take 2 = ofString "//" then
      splitNetloc ((PyStr.ofChars l).drop 2) else ([], PyStr.ofChars l)) =
      Prod.map PyStr.ofChars PyStr.ofChars
        (if l.take 2 = ['/', '/'] then UrlParse.splitNetloc (l.drop 2) else ([], l)) := by
    intro l
    by_cases h : l.take 2 = ['/', '/']
    · rw [if_pos h, if_pos ((hslashes l).mpr h), drop_ofChars]
      exact splitNetloc_ofChars _
    · rw [if_neg h, if_neg fun hsl => h ((hslashes l).mp hsl)]
      rfl
  unfold urlsplit UrlParse.urlsplit
  dsimp only
  rw [dropWhile_ofChars, remove_ofChars, splitScheme_ofChars]
  obtain ⟨scheme, rest⟩ := UrlParse.splitScheme _
  dsimp only
  rw [hnetloc]
  obtain ⟨netloc, rest⟩ := (if rest.take 2 = ['/', '/'] then _ else ([], rest) : _ × _)
  simp only [Prod.map_apply, scalar_mem_ofChars, partition_ofChars, ofSplit,
    checkBracketedNetloc_ofChars, checkNetloc_ofChars]
  obtain ⟨rest, -, fragment⟩ := Str.partition '#' rest
  obtain ⟨path, -, query⟩ := Str.partition '?' rest
  split
  · rfl
  split
  · cases UrlParse.checkBracketedNetloc netloc with
    | error exc => rfl
    | ok _ => cases UrlParse.checkNetloc netloc <;> rfl
  · cases UrlParse.checkNetloc netloc <;> rfl

theorem hostinfo_ofChars (parts : UrlParse.SplitResult) : (SplitResult.ofChars parts).hostinfo =
    (PyStr.ofChars parts.hostinfo.1, parts.hostinfo.2.map PyStr.ofChars) := by
  have hport : ∀ l : List Char, (if PyStr.ofChars l = [] then none else some (PyStr.ofChars l)) =
      (if l = [] then none else some l).map PyStr.ofChars := by
    intro l
    cases l <;> rfl
  unfold SplitResult.hostinfo UrlParse.SplitResult.hostinfo SplitResult.ofChars
  rw [rpartition_ofChars]
  obtain ⟨userinfo, at_, host⟩ := Str.rpartition '@' parts.netloc
  simp only [ofSplit, partition_ofChars]
  obtain ⟨before, haveOpenBr, bracketed⟩ := Str.partition '[' host
  cases haveOpenBr <;> simp [hport]

theorem hostname_ofChars [Unicode] (parts : UrlParse.SplitResult) :
    (SplitResult.ofChars parts).hostname = parts.hostname.map PyStr.ofChars := by
  unfold SplitResult.hostname UrlParse.SplitResult.hostname
  rw [hostinfo_ofChars]
  simp only [partition_ofChars, ofSplit, lower_ofChars]
  by_cases h : parts.hostinfo.1 = []
  · rw [h]
    rfl
  · rw [if_neg h, if_neg fun hempty => h ((ofChars_eq_nil _).mp hempty)]
    obtain ⟨hostname, percent, zone⟩ := Str.partition '%' parts.hostinfo.1
    cases percent <;> simp [PyStr.ofChars]

theorem port_ofChars [Unicode] (parts : UrlParse.SplitResult) :
    (SplitResult.ofChars parts).port = lifted id parts.port := by
  unfold SplitResult.port UrlParse.SplitResult.port
  rw [hostinfo_ofChars]
  cases parts.hostinfo.2 with
  | none => rfl
  | some port =>
      simp only [Option.map_some, satisfies_ofChars, length_ofChars, repr_ofChars, scalars_ofChars]
      split
      · simp only [lifted, PyException.raised, Python.valueError, PyStr.valueError, ofString_append,
          ofString_ofList]
      split
      · simp only [lifted, PyException.raised, Python.valueError, PyStr.valueError]
        rfl
      split <;> rfl

theorem unquote_ofChars : unquote (PyStr.ofChars s) = PyStr.ofChars (UrlParse.unquote s) := by
  have hruns : (PyStr.ofChars s).splitBy
        (fun a b => a.satisfies Str.isAscii == b.satisfies Str.isAscii) =
      (s.splitBy fun a b => Str.isAscii a == Str.isAscii b).map PyStr.ofChars := by
    obtain ⟨hflat, hne, hruns, hcuts⟩ := List.splitBy_eq_iff.mp
      (rfl : s.splitBy (fun a b => Str.isAscii a == Str.isAscii b) = _)
    refine List.splitBy_eq_iff.mpr ⟨?_, ?_, ?_, ?_⟩
    · conv_lhs => rw [hflat]
      exact List.map_flatten
    · simp [PyStr.ofChars]
    · intro run hrun
      obtain ⟨text, htext, rfl⟩ := List.mem_map.mp hrun
      exact (List.isChain_map _).mpr (hruns text htext)
    · refine (List.isChain_map _).mpr (hcuts.imp ?_)
      rintro a b ⟨ha, hb, hcut⟩
      refine ⟨by simpa [PyStr.ofChars] using ha, by simpa [PyStr.ofChars] using hb, ?_⟩
      simpa [PyStr.ofChars, CodePoint.satisfies] using hcut
  unfold unquote UrlParse.unquote
  rw [hruns]
  simp only [scalar_mem_ofChars, List.flatMap_map, satisfies_ofChars, scalars_ofChars]
  split
  · rfl
  · rw [PyStr.ofChars, List.map_flatMap]
    refine List.flatMap_congr fun run _ => ?_
    split <;> rfl

def ofField (field : List Char × List Char) : PyStr × PyStr :=
  (PyStr.ofChars field.1, PyStr.ofChars field.2)

theorem splitOn_ofChars (sep : Char) :
    (PyStr.ofChars s).splitOn (.scalar sep) = (s.splitOn sep).map PyStr.ofChars := by
  induction s with
  | nil => rfl
  | cons c s ih =>
      change (.scalar c :: PyStr.ofChars s : PyStr).splitOn (.scalar sep) = _
      rw [List.splitOn_cons_eq_if_modifyHead, List.splitOn_cons_eq_if_modifyHead, ih]
      by_cases h : c = sep
      · simp [h, PyStr.ofChars]
      · simp only [beq_iff_eq, CodePoint.scalar.injEq, h, if_false]
        cases s.splitOn sep <;> rfl

theorem parseQsl_ofChars : parseQsl (PyStr.ofChars s) = (UrlParse.parseQsl s).map ofField := by
  have hreplace : ∀ l : List Char, unquotePlus (PyStr.ofChars l) =
      PyStr.ofChars (UrlParse.unquotePlus l) := by
    intro l
    unfold unquotePlus UrlParse.unquotePlus
    rw [replace_ofChars, unquote_ofChars]
  unfold parseQsl UrlParse.parseQsl
  rw [splitOn_ofChars, List.filter_map, List.map_map, List.map_map]
  have hnonempty : (fun nameValue : PyStr => decide (nameValue ≠ [])) ∘ PyStr.ofChars =
      fun nameValue => decide (nameValue ≠ []) := by
    funext nameValue
    cases nameValue <;> rfl
  rw [hnonempty]
  refine List.map_congr_left fun nameValue _ => ?_
  simp only [Function.comp_apply, partition_ofChars, ofSplit, hreplace]
  rfl

theorem urlencode_ofFields (query : List (List Char × List Char)) :
    urlencode (query.map ofField) = .ok (PyStr.ofChars (UrlParse.urlencode query)) := by
  have hfield : ∀ field : List Char × List Char, quoteField (ofField field) =
      .ok (PyStr.ofChars (UrlParse.quotePlus field.1 ++ ['='] ++ UrlParse.quotePlus field.2)) := by
    intro field
    unfold quoteField quotePlus ofField
    rw [encode_ofChars, encode_ofChars, ofChars_append, ofChars_append]
    rfl
  have hfields : (query.map ofField).mapM quoteField = .ok (query.map fun field =>
      PyStr.ofChars (UrlParse.quotePlus field.1 ++ ['='] ++ UrlParse.quotePlus field.2)) := by
    induction query with
    | nil => rfl
    | cons field query ih =>
        rw [List.map_cons, List.mapM_cons, hfield, ih]
        rfl
  unfold urlencode UrlParse.urlencode
  rw [hfields]
  refine congrArg Except.ok ?_
  rw [← intercalate_ofChars, List.map_map]
  rfl

theorem urlunsplit_ofChars (scheme netloc path query : List Char) :
    urlunsplit (PyStr.ofChars scheme) (PyStr.ofChars netloc) (PyStr.ofChars path)
      (PyStr.ofChars query) = PyStr.ofChars (UrlParse.urlunsplit scheme netloc path query) := by
  have hpath : (if PyStr.ofChars path ≠ [] ∧ (PyStr.ofChars path).head? ≠ some (.scalar '/') then
      .scalar '/' :: PyStr.ofChars path else PyStr.ofChars path) =
      PyStr.ofChars (if path ≠ [] ∧ path.head? ≠ some '/' then '/' :: path else path) := by
    cases path with
    | nil => rfl
    | cons c path => by_cases h : c = '/' <;> simp [h, PyStr.ofChars]
  have hslashes : ofString "://" = PyStr.ofChars [':', '/', '/'] := rfl
  unfold urlunsplit UrlParse.urlunsplit
  have hmark : ([.scalar '?'] : PyStr) = PyStr.ofChars ['?'] := rfl
  dsimp only
  rw [hpath, hslashes, hmark]
  simp only [ofChars_eq_nil, ← ofChars_append]
  split <;> rfl

end PyUrl

end AgentBoilerplate.Python
