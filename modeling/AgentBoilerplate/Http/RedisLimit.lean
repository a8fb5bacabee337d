import AgentBoilerplate.Collections.Expiring
import AgentBoilerplate.Effects.Protocol
import AgentBoilerplate.Http.Gateway

-- The limiter that several replicas share: a counter in Redis for every scope, client
-- and minute.
namespace AgentBoilerplate.Http

open Effects Collections

abbrev RedisError := String

-- What the limiter asks: its connection, the time in seconds of the epoch, and a
-- transaction that counts up a key and keeps it for some seconds.
inductive RedisCall where
  | connect
  | systemTime
  | hit (bucket : String) (ttl : Nat)
deriving DecidableEq

@[reducible] def RedisCall.Answer : RedisCall → Type
  | .connect => Except RedisError Unit
  | .systemTime => Int
  | .hit _ _ => Except RedisError Nat

@[reducible] def RedisPorts : Interface := ⟨RedisCall, RedisCall.Answer⟩

@[simp] def askRedis (request : RedisCall) : Program RedisPorts request.Answer :=
  .call request .done

-- How the client library reads a counter as 32 bits. A counter that fits is read as it is.
structure RedisClient where
  toU32 : Nat → Except RedisError UInt32
  toU32_small : ∀ count, count < 4294967296 → toU32 count = .ok (UInt32.ofNat count)

structure RedisWindowLimiter where
  maxPerWindow : UInt32
  windowSecs : Nat
  scope : LimiterScope

def RedisWindowLimiter.perMinute (max : UInt32) (scope : LimiterScope) : RedisWindowLimiter :=
  ⟨max, 60, scope⟩

def LimiterScope.text : LimiterScope → String
  | .auth => "auth"
  | .api => "api"
  | .login => "login"

def bucketOf (scope : LimiterScope) (key : String) (windowIndex : Nat) : String :=
  s!"rl:{scope.text}:{key}:{windowIndex}"

namespace RedisWindowLimiter

variable (client : RedisClient) (self : RedisWindowLimiter) (key : String)

-- A time before the epoch counts as the epoch.
def tryAllow : Fallible RedisPorts RedisError Bool := do
  raising (askRedis .connect)
  let now ← liftM (askRedis .systemTime)
  let windowIndex := now.toNat / self.windowSecs
  let count ← raising (askRedis (.hit (bucketOf self.scope key windowIndex) (self.windowSecs + 1)))
  let count ← orRaise (client.toU32 count)
  return count ≤ self.maxPerWindow

def allow : Program RedisPorts Bool := do
  match ← (self.tryAllow client key).run with
  | .ok allowed => return allowed
  | .error _ => return true

end RedisWindowLimiter

-- The keys of the server: each with its integer and the last millisecond it lives.
structure Redis where
  keys : String → Option Expiring.Counter
  calls : Nat

def Redis.empty : Redis := ⟨fun _ => none, 0⟩

-- `INCR` and `EXPIRE`, in one transaction. An integer has 64 bits; one that cannot be
-- counted up is kept all the same.
def Redis.hit (server : Redis) (now : Nat) (bucket : String) (ttl : Nat) :
    Except RedisError Nat × Redis :=
  let count := Expiring.live (server.keys bucket) now
  if count < 9223372036854775807 then
    (.ok (count + 1),
      { server with
        keys := Function.update server.keys bucket (some (count + 1, now + ttl * 1000)) })
  else
    (.error "ERR increment or decrement would overflow",
      { server with keys := Function.update server.keys bucket (some (count, now + ttl * 1000)) })

-- How a command fails: before the server runs it, or when its answer is lost or late.
inductive Outage where
  | unreachable (e : RedisError)
  | unanswered (e : RedisError)

-- What the surroundings decide of every call: the server's clock, the clock of the
-- replica that asks, and how the call fails.
structure RedisEnv where
  time : Nat → Nat
  monotone : Monotone time
  clock : Nat → Int
  outage : Nat → Option Outage

namespace RedisEnv

variable (env : RedisEnv)

def answer : Handler RedisPorts Redis
  | .connect, server =>
      match env.outage server.calls with
      | some (.unreachable e) | some (.unanswered e) => (.error e, server)
      | none => (.ok (), server)
  | .systemTime, server => (env.clock server.calls, server)
  | .hit bucket ttl, server =>
      let ran := server.hit (env.time server.calls) bucket ttl
      match env.outage server.calls with
      | some (.unreachable e) => (.error e, server)
      | some (.unanswered e) => (.error e, ran.2)
      | none => ran

def handle : Handler RedisPorts Redis := fun request server =>
  let answered := env.answer request server
  (answered.1, { answered.2 with calls := answered.2.calls + 1 })

end RedisEnv

-- A request that is to be let through, of some client.
structure Limited where
  max : UInt32
  scope : LimiterScope
  key : String

def Limited.program (client : RedisClient) (request : Limited) : Program RedisPorts Bool :=
  (RedisWindowLimiter.perMinute request.max request.scope).allow client request.key

def limitedRuns {ι : Type} (client : RedisClient) (requests : ι → Limited) :
    Config RedisPorts Redis ι Bool :=
  .start .empty fun i => (requests i).program client

section Buckets

theorem colon_notMem_repr (n : Nat) : ':' ∉ n.repr.toList := by
  rw [Nat.toList_repr]
  intro h
  have hdigit := Nat.isDigit_of_mem_toDigits (by decide) (by decide) h
  exact absurd hdigit (by decide)

-- A text is cut in one way at the last of its separators.
theorem cut_last {c : Char} {front front' back back' : List Char} (hback : c ∉ back)
    (hback' : c ∉ back') (h : front ++ c :: back = front' ++ c :: back') :
    front = front' ∧ back = back' := by
  rcases List.append_eq_append_iff.mp h with ⟨extra, hfront, hrest⟩ | ⟨extra, hfront, hrest⟩
  · cases extra with
    | nil => simp_all
    | cons first rest =>
        refine absurd ?_ hback
        rw [(List.cons.inj hrest).2]
        simp
  · cases extra with
    | nil => simp_all
    | cons first rest =>
        refine absurd ?_ hback'
        rw [(List.cons.inj hrest).2]
        simp

theorem toList_bucketOf (scope : LimiterScope) (key : String) (windowIndex : Nat) :
    (bucketOf scope key windowIndex).toList =
      'r' :: 'l' :: ':' :: (scope.text.toList ++ ':' :: key.toList) ++
        ':' :: windowIndex.repr.toList := by
  simp [bucketOf, toString]

-- Whatever a client writes into its key, it has its own counters.
theorem bucketOf_inj {scope scope' : LimiterScope} {key key' : String}
    {windowIndex windowIndex' : Nat}
    (h : bucketOf scope key windowIndex = bucketOf scope' key' windowIndex') :
    scope = scope' ∧ key = key' ∧ windowIndex = windowIndex' := by
  have htexts := congrArg String.toList h
  rw [toList_bucketOf, toList_bucketOf] at htexts
  obtain ⟨hfront, hindex⟩ := cut_last (colon_notMem_repr _) (colon_notMem_repr _) htexts
  have hindex : windowIndex = windowIndex' := by
    rw [Nat.toList_repr, Nat.toList_repr] at hindex
    calc windowIndex
      _ = Nat.ofDigitChars 10 (Nat.toDigits 10 windowIndex) 0 :=
        (Nat.ofDigitChars_toDigits (by decide) (by decide)).symm
      _ = Nat.ofDigitChars 10 (Nat.toDigits 10 windowIndex') 0 := by rw [hindex]
      _ = windowIndex' := Nat.ofDigitChars_toDigits (by decide) (by decide)
  cases scope <;> cases scope' <;> simp_all [LimiterScope.text, String.toList_inj]

end Buckets

section Runs

-- The number that a call has given a hit of the bucket, and whether a call is one.
def numberOn (bucket : String) : Event RedisPorts → Option Nat
  | ⟨.hit other _, .ok count⟩ => if other = bucket then some count else none
  | _ => none

def hits (bucket : String) (event : Event RedisPorts) : Bool :=
  match event.call with
  | .hit other _ => other = bucket
  | _ => false

-- The hits of a bucket that were answered, each at its time by the server's clock.
def RedisEnv.hitsOn (env : RedisEnv) (bucket : String) (history : List (Event RedisPorts)) :
    List Window.Hit :=
  history.zipIdx.filterMap fun (event, k) =>
    (numberOn bucket event).map fun count => (env.time k, count)

variable {env : RedisEnv} {bucket : String} {past : List (Event RedisPorts)}

theorem hitsOn_append (event : Event RedisPorts) :
    env.hitsOn bucket (past ++ [event]) =
      env.hitsOn bucket past ++
        ((numberOn bucket event).map fun count => (env.time past.length, count)).toList := by
  unfold RedisEnv.hitsOn
  rw [List.zipIdx_append, List.filterMap_append]
  congr 1
  cases hnumber : numberOn bucket event <;> simp [hnumber]

theorem mem_hitsOn (env : RedisEnv) {ttl count : Nat}
    (h : ⟨.hit bucket ttl, .ok count⟩ ∈ past) : ∃ time, (time, count) ∈ env.hitsOn bucket past := by
  obtain ⟨k, hk⟩ := List.mem_iff_getElem?.mp h
  refine ⟨env.time k, List.mem_filterMap.mpr ⟨(_, k), List.mem_zipIdx_iff_getElem?.mpr hk, ?_⟩⟩
  simp [numberOn]

theorem countP_hits_append (event : Event RedisPorts) :
    (past ++ [event]).countP (hits bucket) =
      past.countP (hits bucket) + if hits bucket event then 1 else 0 := by
  rw [List.countP_append, List.countP_singleton]

theorem countP_hits_le (event : Event RedisPorts) :
    past.countP (hits bucket) ≤ (past ++ [event]).countP (hits bucket) := by
  rw [countP_hits_append]
  exact Nat.le_add_right _ _

theorem RedisEnv.time_le (env : RedisEnv) (n : Nat) : env.time n ≤ env.time (n + 1) :=
  env.monotone (Nat.le_succ n)

-- What the server keeps tells the hits of a minute apart, and counts none that was not
-- made.
structure Counts (env : RedisEnv) (server : Redis) (past : List (Event RedisPorts)) : Prop where
  calls : server.calls = past.length
  tracks : ∀ bucket, Expiring.Tracks 61000 (env.hitsOn bucket past) (server.keys bucket)
    (env.time server.calls)
  stored : ∀ bucket, ∀ counter ∈ server.keys bucket, counter.1 ≤ past.countP (hits bucket)
  answered : ∀ bucket, ∀ hit ∈ env.hitsOn bucket past, hit.2 ≤ past.countP (hits bucket)

variable {server : Redis}

theorem Counts.start : Counts env .empty [] := by
  refine ⟨rfl, fun bucket => Expiring.Tracks.start, fun bucket counter hcounter => ?_,
    fun bucket hit hmem => ?_⟩
  · cases hcounter
  · cases hmem

theorem Counts.live_le (h : Counts env server past) (now : Nat) :
    Expiring.live (server.keys bucket) now ≤ past.countP (hits bucket) := by
  unfold Expiring.live
  cases hkey : server.keys bucket with
  | none => exact Nat.zero_le _
  | some counter =>
      have hstored := h.stored bucket counter hkey
      dsimp only
      split
      · exact hstored
      · exact Nat.zero_le _

-- A call that numbers no hit. It may keep a counter for longer, or count up one whose
-- number is lost on the way.
theorem Counts.unnumbered (h : Counts env server past) {event : Event RedisPorts}
    {keys : String → Option Expiring.Counter} (hnone : ∀ bucket, numberOn bucket event = none)
    (hkeys : ∀ bucket, keys bucket = server.keys bucket ∨
      ∃ count, keys bucket = some (count, env.time server.calls + 61000) ∧
        Expiring.live (server.keys bucket) (env.time server.calls) ≤ count ∧
        count ≤ (past ++ [event]).countP (hits bucket)) :
    Counts env ⟨keys, server.calls + 1⟩ (past ++ [event]) := by
  have hsame : ∀ bucket, env.hitsOn bucket (past ++ [event]) = env.hitsOn bucket past := by
    intro bucket
    rw [hitsOn_append, hnone bucket]
    exact List.append_nil _
  have hlater := env.time_le server.calls
  refine ⟨?_, fun bucket => ?_, fun bucket counter hcounter => ?_, fun bucket hit hmem => ?_⟩
  · simp [h.calls]
  · change Expiring.Tracks 61000 _ (keys bucket) (env.time (server.calls + 1))
    rw [hsame]
    rcases hkeys bucket with hkey | ⟨count, hkey, hlive, -⟩
    · rw [hkey]
      exact (h.tracks bucket).later hlater
    · rw [hkey]
      exact ((h.tracks bucket).write hlive).later hlater
  · rcases hkeys bucket with hkey | ⟨count, hkey, -, hcount⟩
    · exact Nat.le_trans (h.stored bucket counter (hkey ▸ hcounter)) (countP_hits_le event)
    · obtain rfl := Option.some.inj (hkey.symm.trans hcounter)
      exact hcount
  · rw [hsame] at hmem
    exact Nat.le_trans (h.answered bucket hit hmem) (countP_hits_le event)

-- A hit that is counted and answered.
theorem Counts.numbered (h : Counts env server past) (bucket : String) (ttl : Nat) :
    let count := Expiring.live (server.keys bucket) (env.time server.calls) + 1
    Counts env
      ⟨Function.update server.keys bucket (some (count, env.time server.calls + 61000)),
        server.calls + 1⟩
      (past ++ [⟨.hit bucket ttl, .ok count⟩]) := by
  intro count
  have hlater := env.time_le server.calls
  have hcount : count ≤ past.countP (hits bucket) + 1 := Nat.succ_le_succ (h.live_le _)
  have hitself : env.hitsOn bucket (past ++ [⟨.hit bucket ttl, .ok count⟩]) =
      env.hitsOn bucket past ++ [(env.time server.calls, count)] := by
    rw [hitsOn_append, h.calls]
    simp [numberOn]
  have hother : ∀ other ≠ bucket, env.hitsOn other (past ++ [⟨.hit bucket ttl, .ok count⟩]) =
      env.hitsOn other past := by
    intro other hne
    rw [hitsOn_append]
    simp [numberOn, hne.symm]
  let event : Event RedisPorts := ⟨.hit bucket ttl, .ok count⟩
  have hmadeself : past.countP (hits bucket) + 1 = (past ++ [event]).countP (hits bucket) := by
    rw [countP_hits_append]
    simp [event, hits]
  refine ⟨?_, fun other => ?_, fun other counter hcounter => ?_, fun other hit hmem => ?_⟩
  · simp [h.calls]
  · by_cases hne : other = bucket
    · subst hne
      rw [hitself]
      simpa using (h.tracks other).number.later hlater
    · rw [hother other hne]
      simpa [hne] using (h.tracks other).later hlater
  · by_cases hne : other = bucket
    · subst hne
      obtain rfl : (count, env.time server.calls + 61000) = counter := by simpa using hcounter
      exact Nat.le_trans hcount (Nat.le_of_eq hmadeself)
    · have hold : counter ∈ server.keys other := by simpa [hne] using hcounter
      exact Nat.le_trans (h.stored other counter hold) (countP_hits_le event)
  · by_cases hne : other = bucket
    · subst hne
      rw [hitself, List.mem_append, List.mem_singleton] at hmem
      rcases hmem with hold | rfl
      · exact Nat.le_trans (h.answered other hit hold) (countP_hits_le event)
      · exact Nat.le_trans hcount (Nat.le_of_eq hmadeself)
    · rw [hother other hne] at hmem
      exact Nat.le_trans (h.answered other hit hmem) (countP_hits_le event)

-- What a request may ask: its own counters, each kept for a minute and a second.
def Permitted (request : Limited) : RedisCall → Prop
  | .hit bucket ttl =>
      ttl = 61 ∧ ∃ windowIndex, bucket = bucketOf request.scope request.key windowIndex
  | _ => True

theorem Counts.handle (h : Counts env server past) {request : Limited} {call : RedisCall}
    (hpermitted : Permitted request call) :
    Counts env (env.handle call server).2 (past ++ [⟨call, (env.handle call server).1⟩]) := by
  cases call with
  | connect =>
      unfold RedisEnv.handle RedisEnv.answer
      dsimp only
      split
      all_goals exact h.unnumbered (fun _ => rfl) fun _ => Or.inl rfl
  | systemTime => exact h.unnumbered (fun _ => rfl) fun _ => Or.inl rfl
  | hit bucket ttl =>
      obtain ⟨rfl, -⟩ := hpermitted
      have hkept : ∀ count, Expiring.live (server.keys bucket) (env.time server.calls) ≤ count →
          count ≤ Expiring.live (server.keys bucket) (env.time server.calls) + 1 →
          ∀ e, Counts env
            ⟨Function.update server.keys bucket (some (count, env.time server.calls + 61000)),
              server.calls + 1⟩
            (past ++ [⟨.hit bucket 61, .error e⟩]) := by
        intro count hlive hcount e
        refine h.unnumbered (fun _ => rfl) fun other => ?_
        by_cases hne : other = bucket
        · subst hne
          refine Or.inr ⟨count, by simp, hlive, Nat.le_trans hcount ?_⟩
          rw [countP_hits_append]
          simpa [hits] using h.live_le (env.time server.calls)
        · exact Or.inl (by simp [hne])
      unfold RedisEnv.handle RedisEnv.answer Redis.hit
      dsimp only
      split
      · exact h.unnumbered (fun _ => rfl) fun _ => Or.inl rfl
      · split
        · exact hkept _ (Nat.le_succ _) (Nat.le_refl _) _
        · exact hkept _ (Nat.le_refl _) (Nat.le_succ _) _
      · split
        · exact h.numbered bucket 61
        · exact hkept _ (Nat.le_refl _) (Nat.le_succ _) _

end Runs

section Decisions

variable {client : RedisClient} {request : Limited} {past : List (Event RedisPorts)}

-- A request is refused on the answer to its own hit, and for no other reason.
def Decided (client : RedisClient) (request : Limited) (past : List (Event RedisPorts))
    (allowed : Bool) : Prop :=
  allowed = false ↔ ∃ bucket ttl count n, ⟨.hit bucket ttl, .ok count⟩ ∈ past ∧
    client.toU32 count = .ok n ∧ request.max < n

-- What a request has asked and what it has made of it.
structure Follows (client : RedisClient) (request : Limited) (past : List (Event RedisPorts))
    (rest : Program RedisPorts Bool) : Prop where
  asks : rest.Asks (Permitted request)
  asked : ∀ event ∈ past, Permitted request event.call
  decides : ∀ allowed, rest = .done allowed → Decided client request past allowed

theorem Follows.call {call : RedisCall} {next : RedisCall.Answer call → Program RedisPorts Bool}
    (hasked : ∀ event ∈ past, Permitted request event.call) (hcall : Permitted request call) :
    Follows client request past (.call call next) :=
  ⟨hcall, hasked, fun _ h => by cases h⟩

-- No hit is answered: the request is let through.
theorem Follows.opens (hasked : ∀ event ∈ past, Permitted request event.call)
    (hnone : ∀ bucket ttl count, ⟨.hit bucket ttl, .ok count⟩ ∉ past) :
    Follows client request past (.done true) := by
  refine ⟨trivial, hasked, fun allowed h => ?_⟩
  obtain rfl : true = allowed := by cases h; rfl
  refine iff_of_false (by decide) ?_
  rintro ⟨bucket, ttl, count, n, hmem, -, -⟩
  exact hnone bucket ttl count hmem

theorem Follows.counted {bucket : String} {count : Nat}
    (hasked : ∀ event ∈ past, Permitted request event.call)
    (hnone : ∀ bucket ttl count, ⟨.hit bucket ttl, .ok count⟩ ∉ past)
    (hcall : Permitted request (.hit bucket 61)) {allowed : Bool}
    (hallowed : allowed = false ↔ ∃ n, client.toU32 count = .ok n ∧ request.max < n) :
    Follows client request (past ++ [⟨.hit bucket 61, .ok count⟩]) (.done allowed) := by
  refine ⟨trivial, fun event hevent => ?_, fun allowed' h => ?_⟩
  · rcases List.mem_append.mp hevent with hold | hnew
    · exact hasked event hold
    · rw [List.mem_singleton.mp hnew]
      exact hcall
  · obtain rfl : allowed = allowed' := by cases h; rfl
    unfold Decided
    rw [hallowed]
    constructor
    · rintro ⟨n, hn, hmax⟩
      exact ⟨bucket, 61, count, n, List.mem_append_right _ (List.mem_singleton_self _), hn, hmax⟩
    · rintro ⟨other, ttl, count', n, hmem, hn, hmax⟩
      rcases List.mem_append.mp hmem with hold | hnew
      · exact absurd hold (hnone other ttl count')
      · cases List.mem_singleton.mp hnew
        exact ⟨n, hn, hmax⟩

theorem program_follows (client : RedisClient) (request : Limited) :
    (request.program client).Along (Follows client request) [] := by
  have hprogram : request.program client = .call .connect fun
      | .error _ => .done true
      | .ok _ => .call .systemTime fun now =>
          .call (.hit (bucketOf request.scope request.key (now.toNat / 60)) 61) fun
            | .error _ => .done true
            | .ok count => match client.toU32 count with
                | .error _ => .done true
                | .ok n => .done (decide (n ≤ request.max)) := by
    unfold Limited.program RedisWindowLimiter.allow RedisWindowLimiter.tryAllow
    simp only [Fallible.run_raising_bind, Fallible.run_lift_bind, Fallible.run_orRaise_bind,
      askRedis, Program.call_bind, Program.done_bind, RedisWindowLimiter.perMinute]
    congr 1
    funext connected
    cases connected with
    | error e => rfl
    | ok _ =>
        simp only [Program.call_bind]
        congr 1
        funext now
        congr 1
        funext answer
        cases answer with
        | error e => rfl
        | ok count =>
            dsimp only
            cases client.toU32 count <;> rfl
  rw [hprogram]
  refine ⟨.call (by simp) trivial, fun connected => ?_⟩
  cases connected with
  | error e => exact .opens (by simp [Permitted]) (by simp)
  | ok _ =>
      refine ⟨.call (by simp [Permitted]) trivial, fun now => ?_⟩
      have hcall : Permitted request
          (.hit (bucketOf request.scope request.key (now.toNat / 60)) 61) := ⟨rfl, _, rfl⟩
      refine ⟨.call (by simp [Permitted]) hcall, fun answer => ?_⟩
      cases answer with
      | error e => exact .opens (by simp [Permitted]) (by simp)
      | ok count =>
          dsimp only
          cases hread : client.toU32 count with
          | error e =>
              exact .counted (by simp [Permitted]) (by simp) hcall (by simp [hread])
          | ok n =>
              exact .counted (by simp [Permitted]) (by simp) hcall (by simp [hread])

theorem lt_ofNat_iff {max : UInt32} {count : Nat} (hfits : count < 4294967296) :
    max < UInt32.ofNat count ↔ max.toNat < count := by
  rw [UInt32.lt_iff_toNat_lt, UInt32.toNat_ofNat', Nat.mod_eq_of_lt hfits]

theorem limitedRuns_history {ι : Type} [DecidableEq ι] (client : RedisClient) (env : RedisEnv)
    (requests : ι → Limited) (schedule : List ι) :
    let c := (limitedRuns client requests).run env.handle schedule
    let history := [] ++ (limitedRuns client requests).history env.handle schedule
    c.Threaded (fun i => Follows client (requests i)) ∧ Counts env c.store history ∧
      c.Answered (· ∈ history) := by
  have hstart : (limitedRuns client requests).Threaded (fun i => Follows client (requests i)) :=
    Config.threaded_start (fun i => program_follows client (requests i)) _
  refine Config.run_history
    (fun c past => c.Threaded (fun i => Follows client (requests i)) ∧ Counts env c.store past ∧
      c.Answered (· ∈ past))
    ?_ schedule ⟨hstart, Counts.start, Config.answered_start _ _ _⟩
  intro c past i call next ⟨hthreaded, hcounts, hanswered⟩ hrest
  have hpermitted : Permitted (requests i) call := (hthreaded.here hrest).asks
  refine ⟨hthreaded.advance hrest, hcounts.handle hpermitted, ?_⟩
  refine Config.Answered.advance (fun j event hevent => ?_) ?_
  · exact List.mem_append_left _ (hanswered j event hevent)
  · exact List.mem_append_right _ (List.mem_singleton_self _)

-- Any number of replicas share the counters of a server whose clock does not go back. In
-- every order of their calls, however the replicas' clocks differ and whichever commands
-- fail: in every minute and second, no more hits of a client's window are numbered within
-- a limit than the limit; no hit has a larger number than hits were made of that window;
-- a request hits windows of its own scope and client only; and while 32 bits hold the
-- numbers of its own hits, it is refused if and only if its own hit is numbered beyond its limit.
theorem redis_limits {ι : Type} [DecidableEq ι] (client : RedisClient) (env : RedisEnv)
    (requests : ι → Limited) (schedule : List ι) :
    let c := (limitedRuns client requests).run env.handle schedule
    let history := (limitedRuns client requests).history env.handle schedule
    (∀ bucket max t, Window.within 61001 max t (env.hitsOn bucket history) ≤ max) ∧
    (∀ bucket, ∀ hit ∈ env.hitsOn bucket history, hit.2 ≤ history.countP (hits bucket)) ∧
    ∀ i, (∀ scope key windowIndex ttl answer,
        ⟨.hit (bucketOf scope key windowIndex) ttl, answer⟩ ∈ (c.threads i).past →
          scope = (requests i).scope ∧ key = (requests i).key) ∧
      ((∀ bucket ttl count, ⟨.hit bucket ttl, .ok count⟩ ∈ (c.threads i).past →
          count < 4294967296) → (c.threads i).rest.Stops fun allowed =>
        allowed = false ↔ ∃ bucket ttl count,
          ⟨.hit bucket ttl, .ok count⟩ ∈ (c.threads i).past ∧ (requests i).max.toNat < count) := by
  intro c history
  obtain ⟨hthreaded, hcounts, hanswered⟩ := limitedRuns_history client env requests schedule
  refine ⟨fun bucket max t => (hcounts.tracks bucket).within_le max t, hcounts.answered,
    fun i => ⟨fun scope key windowIndex ttl answer hmem => ?_, fun hcount => ?_⟩⟩
  · obtain ⟨-, own, hbucket⟩ := (hthreaded.here rfl).asked _ hmem
    obtain ⟨hscope, hkey, -⟩ := bucketOf_inj hbucket
    exact ⟨hscope, hkey⟩
  · cases hrest : (c.threads i).rest with
    | call request next => trivial
    | done allowed =>
        have hdecided := (hthreaded.here hrest).decides allowed rfl
        refine hdecided.trans ⟨?_, ?_⟩
        · rintro ⟨bucket, ttl, count, n, hmem, hread, hmax⟩
          have hfits := hcount bucket ttl count hmem
          obtain rfl := Except.ok.inj ((client.toU32_small count hfits).symm.trans hread)
          exact ⟨bucket, ttl, count, hmem, (lt_ofNat_iff hfits).mp hmax⟩
        · rintro ⟨bucket, ttl, count, hmem, hmax⟩
          have hfits := hcount bucket ttl count hmem
          exact ⟨bucket, ttl, count, UInt32.ofNat count, hmem, client.toU32_small count hfits,
            (lt_ofNat_iff hfits).mpr hmax⟩

end Decisions

-- Two replicas of a login limiter, whose clocks are an hour apart, serve one client in turn.
namespace Sample

def redisClient : RedisClient where
  toU32 count :=
    if count < 4294967296 then .ok (UInt32.ofNat count) else .error "Cannot convert to u32"
  toU32_small _ hcount := if_pos hcount

def redisEnv : RedisEnv where
  time n := 1767225600000 + 20 * n
  monotone _ _ hle := Nat.add_le_add_left (Nat.mul_le_mul_left 20 hle) _
  clock n := if n % 2 = 0 then 1767225600 else 1767222000
  outage n := if n = 5 then some (.unanswered "timed out") else none

def login (_ : Nat) : Limited where
  max := 1
  scope := .login
  key := "192.0.2.7"

def order : List Nat := [0, 0, 0, 1, 1, 1, 2, 2, 2, 3, 3, 3]

def runs (schedule : List Nat) : Config RedisPorts Redis Nat Bool :=
  (limitedRuns redisClient login).run redisEnv.handle schedule

@[irreducible] def served : Config RedisPorts Redis Nat Bool := runs order

theorem served_eq : served = runs order := by
  unfold served
  rfl

def decided : Program RedisPorts Bool → Option Bool
  | .done allowed => some allowed
  | .call _ _ => none

theorem decided_eq_some {p : Program RedisPorts Bool} {allowed : Bool}
    (h : decided p = some allowed) : p = .done allowed := by
  cases p with
  | done value => exact congrArg Program.done (Option.some.inj h)
  | call request next => cases h

-- The numbers that a request's hits were answered with.
def numbers (past : List (Event RedisPorts)) : List Nat :=
  past.filterMap fun
    | ⟨.hit _ _, .ok count⟩ => some count
    | _ => none

theorem mem_numbers {past : List (Event RedisPorts)} {bucket : String} {ttl count : Nat}
    (h : ⟨.hit bucket ttl, .ok count⟩ ∈ past) : count ∈ numbers past :=
  List.mem_filterMap.mpr ⟨_, h, rfl⟩

end Sample

-- The answer to the second request's hit is lost, so the request is let through; the
-- fourth one hits the same window and is refused.
theorem redis_limits_login :
    let c := Sample.served
    (c.threads 1).rest = .done true ∧ (c.threads 3).rest = .done false ∧
      (∃ bucket ttl count, ⟨.hit bucket ttl, .ok count⟩ ∈ (c.threads 3).past ∧ 1 < count) ∧
      ∀ bucket t, Window.within 61001 1 t (Sample.redisEnv.hitsOn bucket
        ((limitedRuns Sample.redisClient Sample.login).history Sample.redisEnv.handle
          Sample.order)) ≤ 1 := by
  intro c
  -- for any schedule: the one at hand would be run by the unifier
  have hlimits : ∀ schedule c, c = Sample.runs schedule →
      (∀ bucket t, Window.within 61001 1 t (Sample.redisEnv.hitsOn bucket
        ((limitedRuns Sample.redisClient Sample.login).history Sample.redisEnv.handle
          schedule)) ≤ 1) ∧
      ((∀ bucket ttl count, ⟨.hit bucket ttl, .ok count⟩ ∈ (c.threads 3).past →
          count < 4294967296) → (c.threads 3).rest.Stops fun allowed =>
        allowed = false ↔ ∃ bucket ttl count,
          ⟨.hit bucket ttl, .ok count⟩ ∈ (c.threads 3).past ∧ 1 < count) := by
    rintro schedule c rfl
    obtain ⟨hwindow, -, hrequests⟩ :=
      redis_limits Sample.redisClient Sample.redisEnv Sample.login schedule
    exact ⟨fun bucket t => hwindow bucket 1 t, (hrequests 3).2⟩
  obtain ⟨hwindow, hdecides⟩ := hlimits Sample.order c Sample.served_eq
  have hpassed : Sample.decided (c.threads 1).rest = some true := by decide +kernel
  have hrefused : Sample.decided (c.threads 3).rest = some false := by decide +kernel
  have hnumbers : Sample.numbers (c.threads 3).past = [2] := by decide +kernel
  have hdecided := hdecides fun bucket ttl count hmem => by
    have hcount := Sample.mem_numbers hmem
    rw [hnumbers, List.mem_singleton] at hcount
    omega
  rw [Sample.decided_eq_some hrefused] at hdecided
  exact ⟨Sample.decided_eq_some hpassed, Sample.decided_eq_some hrefused, hdecided.mp rfl, hwindow⟩

end AgentBoilerplate.Http
