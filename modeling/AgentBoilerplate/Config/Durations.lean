import AgentBoilerplate.Config
import AgentBoilerplate.Chrono
import AgentBoilerplate.Job.UseCases
import AgentBoilerplate.Session

namespace AgentBoilerplate.Config

open Chrono

-- What an operator that panics computes: none is a panic.
abbrev Panicking (α : Type) := Option α

-- The cutoff of a purge by age in the background loop; zero days switch the
-- purge off.
def purgeCutoff (retentionDays : Int) (now : DateTime) : Panicking (Option DateTime) :=
  if retentionDays > 0 then do
    let retention ← TimeDelta.tryDays retentionDays
    let cutoff ← now.checkedSub retention
    return some cutoff
  else
    some none

-- `FailStaleJobs::execute` answers an error for a timeout that is no duration.
def staleCutoff (timeoutSecs : Nat) (now : DateTime) : Panicking (Except PortError DateTime) :=
  match TimeDelta.fromStd timeoutSecs with
  | none => some (.error
      ⟨"invalid timeout: Source duration value is out of range for the target type"⟩)
  | some timeout => do
      let cutoff ← now.checkedSub timeout
      return .ok cutoff

-- `RefreshToken::issue_in_family`.
def tokenExpiry (ttlDays : Int) (now : DateTime) : Panicking DateTime := do
  let ttl ← TimeDelta.tryDays ttlDays
  now.truncSubsecs6.checkedAdd ttl

-- The instants of the years 2000 to 9999.
def Current (now : DateTime) : Prop :=
  startOfYear 2000 ≤ now.instant ∧ now.instant < startOfYear 10000

instance (now : DateTime) : Decidable (Current now) := inferInstanceAs (Decidable (_ ∧ _))

-- Whatever the current time, every date computed from a configuration exists.
structure DurationsFit (config : AppConfig) : Prop where
  dataRetention : ∀ now, Current now → (purgeCutoff config.dataRetentionDays now).isSome
  securityEvents : ∀ now, Current now →
    (purgeCutoff config.securityEventRetentionDays now).isSome
  refreshTokens : ∀ now, Current now → (tokenExpiry config.refreshTokenDays now).isSome
  staleJobs : ∀ now, Current now →
    ∃ cutoff, staleCutoff (config.jobTimeoutMinutes * 60) now = some (.ok cutoff)

-- The days from the first date the library holds to 2000, and from 10000 to
-- the last.
def maxRetentionDays : Int := daysBeforeYear 2000 - daysBeforeYear minYear
def maxTokenDays : Int := daysBeforeYear (maxYear + 1) - daysBeforeYear 10000

-- The ends of the ranges, in nanoseconds and in days.
theorem startOfYear_minYear : startOfYear minYear = -8334601228800000000000 := by decide
theorem startOfYear_maxYear : startOfYear (maxYear + 1) = 8210266876800000000000 := by decide
theorem startOfYear_2000 : startOfYear 2000 = 946684800000000000 := by decide
theorem startOfYear_10000 : startOfYear 10000 = 253402300800000000000 := by decide
theorem maxRetentionDays_eq : maxRetentionDays = 96476249 := by decide
theorem maxTokenDays_eq : maxTokenDays = 92093340 := by decide

-- A 32-bit number of days is never too long for a duration.
theorem tryDays_eq {days : Int} (h : 0 ≤ days) (hlt : days < 2 ^ 32) :
    ∃ delta, TimeDelta.tryDays days = some delta ∧ delta.secs = days * 86400 := by
  refine TimeDelta.tryNew_of_le (by omega) ?_
  unfold maxDeltaSecs
  omega

theorem isSome_purgeCutoff {days : Int} (h : 0 < days) (hlt : days < 2 ^ 32) (now : DateTime) :
    (purgeCutoff days now).isSome ↔ startOfYear minYear ≤ now.instant - Duration.days days := by
  obtain ⟨delta, hdelta, hsecs⟩ := tryDays_eq (Int.le_of_lt h) hlt
  have hcutoff : (purgeCutoff days now).isSome ↔ (now.checkedSub delta).isSome := by
    simp only [purgeCutoff, if_pos h, hdelta]
    cases hsub : now.checkedSub delta <;> simp [hsub]
  have hmax := now.representable.2
  rw [hcutoff, DateTime.isSome_checkedSub, hsecs]
  simp only [Representable, Duration.days, Duration.seconds]
  omega

theorem isSome_tokenExpiry {days : Int} (h : 0 ≤ days) (hlt : days < 2 ^ 32) (now : DateTime) :
    (tokenExpiry days now).isSome ↔
      truncSubsecs6 now.instant + Duration.days days < startOfYear (maxYear + 1) := by
  obtain ⟨delta, hdelta, hsecs⟩ := tryDays_eq h hlt
  have hexpiry : (tokenExpiry days now).isSome ↔ (now.truncSubsecs6.checkedAdd delta).isSome := by
    simp [tokenExpiry, hdelta]
  have hmin := now.truncSubsecs6.representable.1
  rw [hexpiry, DateTime.isSome_checkedAdd, hsecs]
  simp only [Representable, DateTime.truncSubsecs6, Duration.days, Duration.seconds] at hmin ⊢
  omega

-- The earliest current time decides for the cutoffs.
theorem purges_fit_iff {days : Int} (h : 0 ≤ days) (hlt : days < 2 ^ 32) :
    (∀ now, Current now → (purgeCutoff days now).isSome) ↔ days ≤ maxRetentionDays := by
  have hmin := startOfYear_minYear
  have hmax := startOfYear_maxYear
  have hfirst := startOfYear_2000
  have hlast := startOfYear_10000
  rw [maxRetentionDays_eq]
  by_cases hzero : days = 0
  · subst hzero
    exact iff_of_true (fun now _ => rfl) (by omega)
  have hpos : 0 < days := by omega
  constructor
  · intro hfit
    let earliest : DateTime := ⟨startOfYear 2000, by unfold Representable; omega⟩
    have hcutoff := (isSome_purgeCutoff hpos hlt earliest).mp
      (hfit earliest ⟨Int.le_refl _, by change startOfYear 2000 < _; omega⟩)
    simp only [earliest, Duration.days, Duration.seconds] at hcutoff
    omega
  · intro hle now hnow
    refine (isSome_purgeCutoff hpos hlt now).mpr ?_
    have hlow := hnow.1
    simp only [Duration.days, Duration.seconds]
    omega

-- The latest current time decides for the expiry.
theorem expiries_fit_iff {days : Int} (h : 0 ≤ days) (hlt : days < 2 ^ 32) :
    (∀ now, Current now → (tokenExpiry days now).isSome) ↔ days ≤ maxTokenDays := by
  have hmin := startOfYear_minYear
  have hmax := startOfYear_maxYear
  have hfirst := startOfYear_2000
  have hlast := startOfYear_10000
  rw [maxTokenDays_eq]
  constructor
  · intro hfit
    let latest : DateTime := ⟨startOfYear 10000 - 1, by unfold Representable; omega⟩
    have hexpiry := (isSome_tokenExpiry h hlt latest).mp
      (hfit latest ⟨by change _ ≤ startOfYear 10000 - 1; omega, by
        change startOfYear 10000 - 1 < _; omega⟩)
    simp only [latest, truncSubsecs6, Duration.days, Duration.seconds] at hexpiry
    omega
  · intro hle now hnow
    refine (isSome_tokenExpiry h hlt now).mpr ?_
    have hhigh := hnow.2
    have htrunc := truncSubsecs6_le now.instant
    simp only [Duration.days, Duration.seconds]
    omega

-- A 32-bit number of minutes leads back to no earlier than the year -6171.
theorem staleCutoff_ok {minutes : Nat} (h : minutes < 2 ^ 32) {now : DateTime} (hnow : Current now) :
    ∃ cutoff, staleCutoff (minutes * 60) now = some (.ok cutoff) := by
  have hmin := startOfYear_minYear
  have hmax := startOfYear_maxYear
  have hfirst := startOfYear_2000
  obtain ⟨delta, hdelta, hsecs⟩ :=
    TimeDelta.tryNew_of_le (Int.natCast_nonneg (minutes * 60)) (by unfold maxDeltaSecs; omega)
  have hcutoff : (now.checkedSub delta).isSome := by
    rw [DateTime.isSome_checkedSub, hsecs]
    have hlow := hnow.1
    have hhigh := now.representable.2
    simp only [Representable, Duration.seconds]
    omega
  obtain ⟨cutoff, hcutoff⟩ := Option.isSome_iff_exists.mp hcutoff
  refine ⟨cutoff, ?_⟩
  simp only [staleCutoff, TimeDelta.fromStd, hdelta, hcutoff]
  rfl

-- Every date exists, whatever the current time, exactly for the configurations
-- whose days lead nowhere out of the calendar.
theorem durations_fit_iff {lookup : String → Option String} {config : AppConfig}
    (h : AppConfig.fromLookup lookup = .ok config) :
    DurationsFit config ↔ config.dataRetentionDays ≤ maxRetentionDays ∧
      config.securityEventRetentionDays ≤ maxRetentionDays ∧
      config.refreshTokenDays ≤ maxTokenDays := by
  obtain ⟨htimeout, ⟨hrefresh, hrefresh'⟩, ⟨hsecurity, hsecurity'⟩, hdata, hdata'⟩ :=
    AppConfig.fromLookup_bounds h
  have hdays := purges_fit_iff hdata hdata'
  have hevents := purges_fit_iff hsecurity hsecurity'
  have htokens := expiries_fit_iff hrefresh hrefresh'
  constructor
  · intro hfit
    exact ⟨hdays.mp hfit.dataRetention, hevents.mp hfit.securityEvents,
      htokens.mp hfit.refreshTokens⟩
  · rintro ⟨hdata, hsecurity, hrefresh⟩
    exact {
      dataRetention := hdays.mpr hdata
      securityEvents := hevents.mpr hsecurity
      refreshTokens := htokens.mpr hrefresh
      staleJobs := fun now hnow => staleCutoff_ok htimeout hnow }

namespace Sample

-- The environment of a development server with one variable set.
def lookup (name value : String) : String → Option String :=
  fun other => if other = name then some value else none

end Sample

-- The largest value the parser admits: the first purge of 2026 panics.
theorem retention_overflows :
    ∃ config now, AppConfig.fromLookup (Sample.lookup "DATA_RETENTION_DAYS" "4294967295") =
      .ok config ∧ config.dataRetentionDays = 4294967295 ∧ Current now ∧
        purgeCutoff config.dataRetentionDays now = none :=
  ⟨_, ⟨1767225600000000000, by decide⟩, rfl, by decide +kernel, by decide, by decide +kernel⟩

theorem durations_fit_year :
    ∃ config, AppConfig.fromLookup (Sample.lookup "DATA_RETENTION_DAYS" "365") = .ok config ∧
      config.dataRetentionDays = 365 ∧ DurationsFit config := by
  refine ⟨_, rfl, by decide +kernel, ?_⟩
  have hlookup : AppConfig.fromLookup (Sample.lookup "DATA_RETENTION_DAYS" "365") = .ok _ := rfl
  exact (durations_fit_iff hlookup).mpr (by decide +kernel)

end AgentBoilerplate.Config
