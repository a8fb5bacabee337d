import AgentBoilerplate.Basic
import Mathlib.Algebra.Group.Int.Defs
import Mathlib.Algebra.Group.Nat.Defs

namespace AgentBoilerplate.Config

-- Values that must never survive into production.
def placeholders : List String := ["change-me", "insecure-dev-secret"]

-- The variables that are missing, empty, or left at a placeholder.
def missingRequired (names : List String) (lookup : String → Option String) : List String :=
  names.filter fun name =>
    !(lookup name).any fun v => !v.isEmpty && !placeholders.contains v

def requiredInProduction : List String :=
  ["JWT_SECRET", "INTERNAL_API_TOKEN", "DATABASE_URL", "AGENT_API_URL"]

def stripPlus : List Char → List Char
  | '+' :: rest => rest
  | chars => chars

-- `str::parse` into an unsigned integer of so many bits: digits, after a plus
-- sign if there is one.
def parseUnsigned (bits : Nat) (text : String) : Option Nat :=
  let digits := stripPlus text.toList
  if digits.isEmpty ∨ ¬ digits.all Char.isDigit then
    none
  else
    let value := digits.foldl (fun value digit => 10 * value + (digit.toNat - '0'.toNat)) 0
    if value < 2 ^ bits then some value else none

theorem parseUnsigned_lt {bits : Nat} {text : String} {value : Nat}
    (h : parseUnsigned bits text = some value) : value < 2 ^ bits := by
  unfold parseUnsigned at h
  dsimp only at h
  split at h
  · cases h
  · split at h
    · rename_i hlt
      cases h
      exact hlt
    · cases h

structure RateLimitConfig where
  authPerMinute : Nat
  apiPerMinute : Nat
  loginPerMinute : Nat
  redisUrl : Option String
deriving DecidableEq, Repr

structure SmtpConfig where
  host : String
  port : Nat
  username : String
  password : String
  from_ : String
deriving DecidableEq, Repr

structure AppConfig where
  jwtSecret : String
  internalToken : String
  agentApiUrl : Option String
  databaseUrl : Option String
  jobTimeoutMinutes : Nat
  databaseMaxConnections : Nat
  schedulerTickSeconds : Nat
  dailySearchQuota : Nat
  rateLimits : RateLimitConfig
  refreshTokenDays : Int
  bindAddr : String
  digestSigningSecret : Option String
  digestAllowPrivateWebhooks : Bool
  securityEventRetentionDays : Int
  dataRetentionDays : Int
  smtp : Option SmtpConfig
  warnings : List String
deriving DecidableEq, Repr

def minSecretLen : Nat := 32

-- A placeholder is warned about elsewhere; `len` counts the bytes of the text.
def tooShort (v : String) : Bool := v.utf8ByteSize < minSecretLen && !placeholders.contains v

section Lookup

variable (lookup : String → Option String)

def get (name : String) : Option String := (lookup name).filter fun v => !v.isEmpty

-- A number that does not parse falls back to the default.
def getUnsigned (bits : Nat) (name : String) (default : Nat) : Nat :=
  ((get lookup name).bind (parseUnsigned bits)).getD default

def getU32 (name : String) (default : Nat) : Nat := getUnsigned lookup 32 name default

def smtpFrom : Option SmtpConfig × List String :=
  match get lookup "SMTP_HOST", get lookup "SMTP_FROM" with
  | some host, some from_ =>
      (some {
        host
        port := getUnsigned lookup 16 "SMTP_PORT" 587
        username := (get lookup "SMTP_USERNAME").getD ""
        password := (get lookup "SMTP_PASSWORD").getD ""
        from_ }, [])
  | some _, none => (none, ["SMTP_HOST set but SMTP_FROM missing — email channel disabled"])
  | none, _ => (none, [])

def AppConfig.fromLookup : Except (List String) AppConfig :=
  let missing := missingRequired requiredInProduction lookup
  if lookup "APP_ENV" = some "production" ∧ ¬ missing.isEmpty then
    .error missing
  else
    let jwtSecret := (get lookup "JWT_SECRET").getD "insecure-dev-secret"
    let agentApiUrl := get lookup "AGENT_API_URL"
    let databaseUrl := get lookup "DATABASE_URL"
    let internalToken := (get lookup "INTERNAL_API_TOKEN").getD "change-me"
    let (smtp, smtpWarnings) := smtpFrom lookup
    .ok {
      jwtSecret, internalToken, agentApiUrl, databaseUrl
      jobTimeoutMinutes := getU32 lookup "JOB_TIMEOUT_MINUTES" 15
      databaseMaxConnections := max (getU32 lookup "DATABASE_MAX_CONNECTIONS" 10) 1
      schedulerTickSeconds := max (getU32 lookup "SCHEDULER_TICK_SECONDS" 60) 1
      dailySearchQuota := getU32 lookup "DAILY_SEARCH_QUOTA" 20
      rateLimits := {
        authPerMinute := getU32 lookup "RATE_LIMIT_AUTH_PER_MINUTE" 10
        apiPerMinute := getU32 lookup "RATE_LIMIT_API_PER_MINUTE" 120
        loginPerMinute := getU32 lookup "LOGIN_MAX_ATTEMPTS_PER_MINUTE" 10
        redisUrl := get lookup "RATE_LIMIT_REDIS_URL" }
      refreshTokenDays := getU32 lookup "REFRESH_TOKEN_DAYS" 30
      bindAddr := (get lookup "BIND_ADDR").getD "0.0.0.0:8000"
      digestSigningSecret := get lookup "DIGEST_SIGNING_SECRET"
      digestAllowPrivateWebhooks := get lookup "DIGEST_ALLOW_PRIVATE_WEBHOOKS" = some "true"
      securityEventRetentionDays := getU32 lookup "SECURITY_EVENT_RETENTION_DAYS" 90
      dataRetentionDays := getU32 lookup "DATA_RETENTION_DAYS" 0
      smtp
      warnings :=
        (if (get lookup "JWT_SECRET").isNone then
          ["JWT_SECRET not set, using an insecure development default"] else []) ++
        (if agentApiUrl.isNone then
          ["AGENT_API_URL not set, jobs will not be dispatched (noop)"] else []) ++
        (if databaseUrl.isNone then
          ["DATABASE_URL not set, using in-memory persistence (data lost on restart)"] else []) ++
        (if tooShort jwtSecret then
          ["JWT_SECRET is shorter than 32 characters — use a long, random value"] else []) ++
        (if tooShort internalToken then
          ["INTERNAL_API_TOKEN is shorter than 32 characters — use a long, random value"]
          else []) ++
        smtpWarnings }

end Lookup

theorem getU32_lt (lookup : String → Option String) (name : String) {default : Nat}
    (h : default < 2 ^ 32) : getU32 lookup name default < 2 ^ 32 := by
  unfold getU32 getUnsigned
  cases hparsed : (get lookup name).bind (parseUnsigned 32) with
  | none => exact h
  | some value =>
      obtain ⟨text, -, hvalue⟩ := Option.bind_eq_some_iff.mp hparsed
      exact parseUnsigned_lt hvalue

-- The durations an accepted configuration holds are 32-bit numbers.
theorem AppConfig.fromLookup_bounds {lookup : String → Option String} {config : AppConfig}
    (h : AppConfig.fromLookup lookup = .ok config) :
    config.jobTimeoutMinutes < 2 ^ 32 ∧
      (0 ≤ config.refreshTokenDays ∧ config.refreshTokenDays < 2 ^ 32) ∧
      (0 ≤ config.securityEventRetentionDays ∧ config.securityEventRetentionDays < 2 ^ 32) ∧
      (0 ≤ config.dataRetentionDays ∧ config.dataRetentionDays < 2 ^ 32) := by
  have hdays : ∀ name (default : Nat), default < 2 ^ 32 →
      (0 : Int) ≤ getU32 lookup name default ∧ (getU32 lookup name default : Int) < 2 ^ 32 := by
    intro name default hdefault
    have hlt := getU32_lt lookup name hdefault
    omega
  unfold AppConfig.fromLookup at h
  dsimp only at h
  split at h
  · cases h
  · cases h
    exact ⟨getU32_lt lookup _ (by decide), hdays _ 30 (by decide), hdays _ 90 (by decide),
      hdays _ 0 (by decide)⟩

end AgentBoilerplate.Config
