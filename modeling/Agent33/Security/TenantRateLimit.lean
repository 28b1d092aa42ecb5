import Agent33.Library.Dict
import Agent33.Library.RequestLimits
import Agent33.Library.Text

/-!
# Rate limits of tenants

Every tenant has a bucket of tokens and counters of three windows. A check refills the bucket,
starts the windows that are over anew, and lets the request through when no counter has reached
its limit and a token is left. Times are exact numbers of seconds.
-/

namespace Agent33.Security.TenantRateLimit

open Library List TokenBucket

inductive RateLimitTier
  | free
  | standard
  | premium
  | unlimited
  deriving DecidableEq

structure TierConfig where
  requestsPerMinute : ℕ
  requestsPerHour : ℕ
  dailyQuota : ℕ
  burstSize : ℕ

def tierConfig : RateLimitTier → TierConfig
  | .free => ⟨10, 200, 1000, 5⟩
  | .standard => ⟨60, 2000, 10000, 15⟩
  | .premium => ⟨200, 10000, 50000, 50⟩
  | .unlimited => ⟨0, 0, 0, 0⟩

structure RateLimitState where
  tokens : ℚ
  maxTokens : ℚ
  refillRate : ℚ
  lastRefill : ℚ
  requestCountMinute : ℕ := 0
  requestCountHour : ℕ := 0
  requestCountDaily : ℕ := 0
  minuteReset : ℚ := 0
  hourReset : ℚ := 0
  dailyReset : ℚ := 0

structure RateLimiter where
  defaultTier : RateLimitTier := .standard
  states : Dict String RateLimitState := Dict.empty
  tiers : Dict String RateLimitTier := Dict.empty

inductive Period
  | minute
  | hour
  | day

def Period.span : Period → ℚ
  | .minute => 60
  | .hour => 3600
  | .day => 86400

def TierConfig.limit (config : TierConfig) : Period → ℕ
  | .minute => config.requestsPerMinute
  | .hour => config.requestsPerHour
  | .day => config.dailyQuota

namespace RateLimitState

variable (state : RateLimitState)

def count : Period → ℕ
  | .minute => state.requestCountMinute
  | .hour => state.requestCountHour
  | .day => state.requestCountDaily

def resetAt : Period → ℚ
  | .minute => state.minuteReset
  | .hour => state.hourReset
  | .day => state.dailyReset

def new (tier : RateLimitTier) (now : ℚ) : RateLimitState :=
  let config := tierConfig tier
  if tier = .unlimited then
    { tokens := 1000000, maxTokens := 1000000, refillRate := 1000000, lastRefill := now,
      minuteReset := now + 60, hourReset := now + 3600, dailyReset := now + 86400 }
  else
    { tokens := config.burstSize, maxTokens := config.burstSize,
      refillRate := config.requestsPerMinute / 60, lastRefill := now,
      minuteReset := now + 60, hourReset := now + 3600, dailyReset := now + 86400 }

def refillTokens (now : ℚ) : RateLimitState :=
  let elapsed := now - state.lastRefill
  if 0 < elapsed then
    { state with
      tokens := min state.maxTokens (state.tokens + elapsed * state.refillRate)
      lastRefill := now }
  else state

def resetExpiredWindows (now : ℚ) : RateLimitState :=
  { state with
    requestCountMinute := if state.minuteReset ≤ now then 0 else state.requestCountMinute
    minuteReset := if state.minuteReset ≤ now then now + 60 else state.minuteReset
    requestCountHour := if state.hourReset ≤ now then 0 else state.requestCountHour
    hourReset := if state.hourReset ≤ now then now + 3600 else state.hourReset
    requestCountDaily := if state.dailyReset ≤ now then 0 else state.requestCountDaily
    dailyReset := if state.dailyReset ≤ now then now + 86400 else state.dailyReset }

def consume : RateLimitState :=
  { state with
    tokens := state.tokens - 1
    requestCountMinute := state.requestCountMinute + 1
    requestCountHour := state.requestCountHour + 1
    requestCountDaily := state.requestCountDaily + 1 }

end RateLimitState

section Check

/-- A check of a tenant, with what the clock reads as the check goes on: when a new state is made,
when the bucket is refilled, when the windows are reset, and when the time to wait is computed. -/
structure Check where
  tenantId : String
  tier : Option RateLimitTier := none
  created : ℚ
  refilled : ℚ
  reset : ℚ
  retry : ℚ

abbrev Headers := Dict String Text

/-- `int(x)`. -/
def truncate (x : ℚ) : ℤ := x.num.tdiv x.den

def str (n : ℤ) : Text := (toString n).toList

def unlimitedHeaders : Headers :=
  Dict.ofList [("X-RateLimit-Limit", "unlimited".toList),
    ("X-RateLimit-Remaining", "unlimited".toList), ("X-RateLimit-Reset", "0".toList)]

def rateLimitHeaders (limit remaining : ℕ) (resetAt : ℚ) : Headers :=
  Dict.ofList [("X-RateLimit-Limit", str limit), ("X-RateLimit-Remaining", str remaining),
    ("X-RateLimit-Reset", str (truncate resetAt))]

def refusalHeaders (limit : ℕ) (resetAt wait : ℚ) : Headers :=
  (rateLimitHeaders limit 0 resetAt).set "Retry-After" (str (max 1 (truncate wait)))

def exhausted (config : TierConfig) (state : RateLimitState) (period : Period) : Bool :=
  0 < config.limit period ∧ config.limit period ≤ state.count period

def answer (config : TierConfig) (state : RateLimitState) (retry : ℚ) :
    (Bool × Headers) × RateLimitState :=
  match [Period.minute, .hour, .day].find? (exhausted config state) with
  | some period =>
    ((false, refusalHeaders (config.limit period) (state.resetAt period)
      (state.resetAt period - retry)), state)
  | none =>
    if state.tokens < 1 then
      ((false, refusalHeaders config.requestsPerMinute state.minuteReset
        ((1 - state.tokens) / state.refillRate)), state)
    else
      ((true, rateLimitHeaders config.requestsPerMinute
        (config.requestsPerMinute - state.consume.requestCountMinute) state.minuteReset),
        state.consume)

namespace RateLimiter

variable (limiter : RateLimiter) (check : Check)

def getTier (tenantId : String) : RateLimitTier :=
  limiter.tiers.getD tenantId limiter.defaultTier

def effectiveTier : RateLimitTier := check.tier.getD (limiter.getTier check.tenantId)

def ensureState (tier : RateLimitTier) : RateLimitState :=
  (limiter.states.get? check.tenantId).getD (RateLimitState.new tier check.created)

def checkRateLimit : (Bool × Headers) × RateLimiter :=
  let tier := limiter.effectiveTier check
  let state := limiter.ensureState check tier
  let limiter := { limiter with states := limiter.states.set check.tenantId state }
  if tier = .unlimited then ((true, unlimitedHeaders), limiter)
  else
    let result := answer (tierConfig tier)
      ((state.refillTokens check.refilled).resetExpiredWindows check.reset) check.retry
    (result.1, { limiter with states := limiter.states.set check.tenantId result.2 })

def after (checks : List Check) : RateLimiter :=
  checks.foldl (fun limiter check => (limiter.checkRateLimit check).2) limiter

def answers : RateLimiter → List Check → List (Check × Bool)
  | _, [] => []
  | limiter, check :: checks =>
    (check, (limiter.checkRateLimit check).1.1) :: answers (limiter.checkRateLimit check).2 checks

end RateLimiter

end Check

section Idle

variable {state : RateLimitState}

def RateLimitState.bucket (state : RateLimitState) : TokenBucket ℚ :=
  ⟨state.maxTokens, state.refillRate, state.tokens, state.lastRefill⟩

def RateLimitState.idle (state : RateLimitState) (check : Check) : RateLimitState :=
  (state.refillTokens check.refilled).resetExpiredWindows check.reset

theorem bucket_refillTokens (hfilled : state.bucket.Filled) (hlast : state.lastRefill ≤ now) :
    (state.refillTokens now).bucket = state.bucket.refill now := by
  rw [RateLimitState.refillTokens]
  split_ifs with helapsed
  · rfl
  · have heq : now = state.lastRefill := le_antisymm (sub_nonpos.mp (not_lt.mp helapsed)) hlast
    have hle : state.tokens ≤ state.maxTokens := hfilled.tokens_le
    simp [RateLimitState.bucket, refill, heq, hle]

variable (period : Period)

theorem count_resetExpiredWindows :
    (state.resetExpiredWindows now).count period =
      if state.resetAt period ≤ now then 0 else state.count period := by
  cases period <;> rfl

theorem resetAt_resetExpiredWindows :
    (state.resetExpiredWindows now).resetAt period =
      if state.resetAt period ≤ now then now + period.span else state.resetAt period := by
  cases period <;> rfl

theorem count_refillTokens : (state.refillTokens now).count period = state.count period := by
  rw [RateLimitState.refillTokens]
  split_ifs
  · cases period <;> rfl
  · rfl

theorem resetAt_refillTokens : (state.refillTokens now).resetAt period = state.resetAt period := by
  rw [RateLimitState.refillTokens]
  split_ifs
  · cases period <;> rfl
  · rfl

theorem resetAt_consume : state.consume.resetAt period = state.resetAt period := by
  cases period <;> rfl

theorem count_consume : state.consume.count period = state.count period + 1 := by
  cases period <;> rfl

theorem answer_cases (config : TierConfig) (state : RateLimitState) (retry : ℚ) :
    ((answer config state retry).1.1 = true ∧ 1 ≤ state.tokens ∧
        (∀ period, 0 < config.limit period → state.count period < config.limit period) ∧
        (answer config state retry).2 = state.consume) ∨
      ((answer config state retry).1.1 = false ∧ (answer config state retry).2 = state) := by
  rw [answer]
  cases hfind : [Period.minute, .hour, .day].find? (exhausted config state) with
  | some period => exact .inr ⟨rfl, rfl⟩
  | none =>
    by_cases htokens : state.tokens < 1
    · rw [if_pos htokens]
      exact .inr ⟨rfl, rfl⟩
    · rw [if_neg htokens]
      refine .inl ⟨rfl, not_lt.mp htokens, fun period hlimit => ?_, rfl⟩
      have hnone := find?_eq_none.mp hfind period (by cases period <;> simp)
      simpa [exhausted, hlimit] using hnone

end Idle

section Tenant

variable {config : TierConfig} {state : RateLimitState} {created : ℚ} {check : Check}
  {history : List (Check × Bool)}

def TierConfig.bucket (config : TierConfig) (created : ℚ) : TokenBucket ℚ :=
  ⟨config.burstSize, config.requestsPerMinute / 60, config.burstSize, created⟩

def eventOf (c : Check × Bool) : ℚ × Bool := (c.1.refilled, c.2)

def windowStep (span : ℚ) (window : ℚ × ℕ) (c : Check × Bool) : ℚ × ℕ :=
  let window := if window.1 ≤ c.1.reset then (c.1.reset + span, 0) else window
  (window.1, window.2 + if c.2 then 1 else 0)

/-- The end of the current window, and how many requests were let through in it. The first window
begins with the state, every other one with the first check after the end of the one before. -/
def windowOf (span created : ℚ) (history : List (Check × Bool)) : ℚ × ℕ :=
  history.foldl (windowStep span) (created + span, 0)

structure Tracked (config : TierConfig) (created : ℚ) (state : RateLimitState)
    (history : List (Check × Bool)) : Prop where
  bucket_eq : state.bucket = (history.map eventOf).foldl TokenBucket.step (config.bucket created)
  fair : (config.bucket created).Fair (history.map eventOf)
  window_eq : ∀ period : Period,
    (state.resetAt period, state.count period) = windowOf period.span created history
  count_le : ∀ period, 0 < config.limit period → state.count period ≤ config.limit period

theorem filled_bucket (config : TierConfig) (created : ℚ) : (config.bucket created).Filled where
  rate_nonneg := div_nonneg (Nat.cast_nonneg _) (by norm_num)
  tokens_nonneg := Nat.cast_nonneg _
  tokens_le := le_rfl

theorem tracked_new (htier : tier ≠ .unlimited) (created : ℚ) :
    Tracked (tierConfig tier) created (RateLimitState.new tier created) [] := by
  rw [RateLimitState.new, if_neg htier]
  exact
    { bucket_eq := rfl
      fair := trivial
      window_eq := fun period => by cases period <;> rfl
      count_le := fun period _ => by cases period <;> exact Nat.zero_le _ }

section

variable (h : Tracked config created state history)
include h

theorem Tracked.filled : state.bucket.Filled :=
  h.bucket_eq ▸ h.fair.filled (filled_bucket config created)

theorem Tracked.idle_count_le (hlimit : 0 < config.limit period) :
    (state.idle check).count period ≤ config.limit period := by
  have hle := h.count_le period hlimit
  rw [RateLimitState.idle, count_resetExpiredWindows, count_refillTokens]
  split_ifs <;> omega

theorem Tracked.answer (hlast : state.lastRefill ≤ check.refilled) :
    Tracked config created (answer config (state.idle check) check.retry).2
      (history ++ [(check, (answer config (state.idle check) check.retry).1.1)]) := by
  have hidle : (state.idle check).bucket = state.bucket.refill check.refilled :=
    bucket_refillTokens h.filled hlast
  have hwindow : ∀ period ok, windowOf (Period.span period) created (history ++ [(check, ok)]) =
      ((state.idle check).resetAt period,
        (state.idle check).count period + if ok then 1 else 0) := by
    intro period ok
    rw [windowOf, foldl_append, ← windowOf, ← h.window_eq period, RateLimitState.idle,
      resetAt_resetExpiredWindows, count_resetExpiredWindows, resetAt_refillTokens,
      count_refillTokens, foldl_cons, foldl_nil, windowStep]
    split_ifs <;> rfl
  have hlast' : ((history.map eventOf).foldl step (config.bucket created)).last ≤
      check.refilled := h.bucket_eq ▸ hlast
  rcases answer_cases config (state.idle check) check.retry with
    ⟨hok, htokens, hroom, hstate⟩ | ⟨hok, hstate⟩
  · rw [hok, hstate]
    refine ⟨?_, ?_, fun period => ?_, fun period hlimit => ?_⟩
    · rw [map_append, foldl_append, ← h.bucket_eq]
      exact congrArg (fun b : TokenBucket ℚ => { b with tokens := b.tokens - 1 }) hidle
    · rw [map_append]
      refine fair_append.mpr ⟨h.fair, hlast', fun _ => ?_⟩
      rw [← h.bucket_eq]
      exact (congrArg tokens hidle) ▸ htokens
    · rw [hwindow, resetAt_consume, count_consume]
      rfl
    · rw [count_consume]
      exact hroom period hlimit
  · rw [hok, hstate]
    refine ⟨?_, ?_, fun period => ?_, fun period hlimit => ?_⟩
    · rw [map_append, foldl_append, ← h.bucket_eq, hidle]
      simp [step, eventOf, refill]
    · rw [map_append]
      exact fair_append.mpr ⟨h.fair, hlast', fun h => absurd h Bool.false_ne_true⟩
    · rw [hwindow]
      rfl
    · exact h.idle_count_le hlimit

end

end Tenant

section Runs

variable {limiter : RateLimiter} {tier : RateLimitTier} {tenant : String} {check : Check}
  {checks : List Check}

def Check.readings (check : Check) : List ℚ :=
  [check.created, check.refilled, check.reset, check.retry]

def Monotone (checks : List Check) : Prop := (checks.flatMap Check.readings).Pairwise (· ≤ ·)

def history (limiter : RateLimiter) (tenant : String) (checks : List Check) : List (Check × Bool) :=
  (limiter.answers checks).filter fun c => c.1.tenantId = tenant

theorem after_append (limiter : RateLimiter) (checks : List Check) (check : Check) :
    limiter.after (checks ++ [check]) = ((limiter.after checks).checkRateLimit check).2 := by
  rw [RateLimiter.after, foldl_append]
  rfl

theorem answers_append (limiter : RateLimiter) (checks : List Check) (check : Check) :
    limiter.answers (checks ++ [check]) = limiter.answers checks ++
      [(check, ((limiter.after checks).checkRateLimit check).1.1)] := by
  induction checks generalizing limiter with
  | nil => rfl
  | cons first checks ih =>
    rw [cons_append, RateLimiter.answers, ih]
    rfl

theorem mem_of_mem_history (h : c ∈ history limiter tenant checks) : c.1 ∈ checks := by
  have hanswers : c ∈ limiter.answers checks := mem_of_mem_filter h
  clear h
  induction checks generalizing limiter with
  | nil => exact absurd hanswers not_mem_nil
  | cons first checks ih =>
    rcases mem_cons.mp hanswers with rfl | hanswers
    · exact mem_cons_self
    · exact mem_cons_of_mem _ (ih hanswers)

theorem effectiveTier_after (limiter : RateLimiter) (checks : List Check) (check : Check) :
    (limiter.after checks).effectiveTier check = limiter.effectiveTier check := by
  induction checks using List.reverseRecOn with
  | nil => rfl
  | append_singleton checks last ih =>
    rw [after_append, ← ih, RateLimiter.checkRateLimit]
    split_ifs <;> rfl

theorem get?_checkRateLimit_of_ne (h : check.tenantId ≠ tenant) :
    (limiter.checkRateLimit check).2.states.get? tenant = limiter.states.get? tenant := by
  rw [RateLimiter.checkRateLimit]
  split_ifs
  · rw [Dict.get?_set, if_neg (Ne.symm h)]
  · rw [Dict.get?_set, if_neg (Ne.symm h), Dict.get?_set, if_neg (Ne.symm h)]

theorem checkRateLimit_limited (htier : tier ≠ .unlimited)
    (hfixed : limiter.effectiveTier check = tier) :
    (limiter.checkRateLimit check).1 = (answer (tierConfig tier)
        ((limiter.ensureState check tier).idle check) check.retry).1 ∧
      (limiter.checkRateLimit check).2.states.get? check.tenantId = some (answer
        (tierConfig tier) ((limiter.ensureState check tier).idle check) check.retry).2 := by
  rw [RateLimiter.checkRateLimit, hfixed, if_neg htier]
  exact ⟨rfl, (Dict.get?_set ..).trans (if_pos rfl)⟩

structure TenantState (tier : RateLimitTier) (created : ℚ) (state : RateLimitState)
    (past : List (Check × Bool)) : Prop where
  tracked : Tracked (tierConfig tier) created state past
  created_eq : (past.head?.map fun c => c.1.created) = some created

theorem monotone_append (h : Monotone (checks ++ [check])) :
    Monotone checks ∧ check.created ≤ check.refilled ∧
      ∀ c ∈ checks, c.created ≤ check.refilled ∧ c.refilled ≤ check.refilled := by
  rw [Monotone, flatMap_append, pairwise_append] at h
  obtain ⟨hchecks, hcheck, hle⟩ := h
  refine ⟨hchecks, ?_, fun c hc => ?_⟩
  · rw [flatMap_singleton, Check.readings] at hcheck
    exact (pairwise_cons.mp hcheck).1 check.refilled mem_cons_self
  · have hin : ∀ r ∈ c.readings, r ∈ checks.flatMap Check.readings :=
      fun r hr => mem_flatMap.mpr ⟨c, hc, hr⟩
    exact ⟨hle _ (hin _ (by simp [Check.readings])) _ (by simp [Check.readings]),
      hle _ (hin _ (by simp [Check.readings])) _ (by simp [Check.readings])⟩

theorem history_append (limiter : RateLimiter) (tenant : String) (checks : List Check)
    (check : Check) : history limiter tenant (checks ++ [check]) =
      history limiter tenant checks ++ if check.tenantId = tenant then
        [(check, ((limiter.after checks).checkRateLimit check).1.1)] else [] := by
  rw [history, answers_append, filter_append, ← history]
  by_cases htenant : check.tenantId = tenant <;> simp [htenant]

theorem TenantState.lastRefill_le (h : TenantState tier created state past)
    (hle : ∀ c ∈ past, c.1.created ≤ t ∧ c.1.refilled ≤ t) : state.lastRefill ≤ t := by
  obtain ⟨c, hhead, hcreated⟩ := Option.map_eq_some_iff.mp h.created_eq
  have hbucket : state.lastRefill = _ := congrArg last h.tracked.bucket_eq
  rw [hbucket]
  apply last_foldl_le
  · exact hcreated ▸ (hle c (mem_of_mem_head? hhead)).1
  · intro e he
    obtain ⟨c, hc, rfl⟩ := mem_map.mp he
    exact (hle c hc).2

theorem tenantState_after (htier : tier ≠ .unlimited) (hnew : limiter.states.get? tenant = none)
    (hclock : Monotone checks)
    (hfixed : ∀ c ∈ checks, c.tenantId = tenant → limiter.effectiveTier c = tier) :
    (∀ state, (limiter.after checks).states.get? tenant = some state →
        ∃ created, TenantState tier created state (history limiter tenant checks)) ∧
      ((limiter.after checks).states.get? tenant = none → history limiter tenant checks = []) := by
  induction checks using List.reverseRecOn with
  | nil => exact ⟨fun state hstate => by simp [RateLimiter.after, hnew] at hstate, fun _ => rfl⟩
  | append_singleton checks check ih =>
    obtain ⟨hchecks, hcreated, hle⟩ := monotone_append hclock
    obtain ⟨hsome, hnone⟩ := ih hchecks fun c hc => hfixed c (mem_append_left _ hc)
    rw [after_append, history_append]
    by_cases htenant : check.tenantId = tenant
    · subst htenant
      have heffective := (effectiveTier_after limiter checks check).trans
        (hfixed check (by simp) rfl)
      obtain ⟨hanswer, hstate⟩ := checkRateLimit_limited htier heffective
      rw [hstate, if_pos rfl, hanswer]
      refine ⟨fun state' hstate' => ?_, fun h => by simp at h⟩
      obtain rfl := Option.some.inj hstate'
      rw [RateLimiter.ensureState]
      cases hget : (limiter.after checks).states.get? check.tenantId with
      | none =>
        rw [hnone hget]
        refine ⟨check.created, ⟨?_, rfl⟩⟩
        apply (tracked_new htier check.created).answer
        rw [RateLimitState.new, if_neg htier]
        exact hcreated
      | some state =>
        obtain ⟨created, hpast⟩ := hsome state hget
        refine ⟨created, ⟨?_, ?_⟩⟩
        · apply hpast.tracked.answer
          exact hpast.lastRefill_le fun c hc => hle c.1 (mem_of_mem_history hc)
        · obtain ⟨c, hhead, hcreated⟩ := Option.map_eq_some_iff.mp hpast.created_eq
          rw [head?_append, hhead]
          exact congrArg some hcreated
    · rw [if_neg htenant, append_nil, get?_checkRateLimit_of_ne htenant]
      exact ⟨hsome, hnone⟩

/-- What the limits of a tier promise of the checks of a tenant. A request counts at the time at
which its check refills the bucket. -/
structure TenantLimits (limiter : RateLimiter) (tier : RateLimitTier) (tenant : String)
    (checks : List Check) : Prop where
  tokens : ∀ state, (limiter.after checks).states.get? tenant = some state →
    0 ≤ state.tokens ∧ state.tokens ≤ (tierConfig tier).burstSize
  rate : ∀ s t, s ≤ t →
    (((history limiter tenant checks).countP fun c =>
        c.2 ∧ s ≤ c.1.refilled ∧ c.1.refilled ≤ t : ℕ) : ℚ) ≤
      (tierConfig tier).burstSize + (t - s) * (tierConfig tier).requestsPerMinute / 60
  windows : ∀ state, (limiter.after checks).states.get? tenant = some state → ∀ period : Period,
    ∃ created, ((history limiter tenant checks).head?.map fun c => c.1.created) = some created ∧
      (state.resetAt period, state.count period) =
        windowOf period.span created (history limiter tenant checks) ∧
      (0 < (tierConfig tier).limit period → state.count period ≤ (tierConfig tier).limit period)
  rejected : ∀ before check rest, checks = before ++ check :: rest → check.tenantId = tenant →
    ((limiter.after before).checkRateLimit check).1.1 = false →
      (limiter.after (before ++ [check])).states.get? tenant =
        some (((limiter.after before).ensureState check tier).idle check)

theorem takenIn_history_le
    (hsome : ∀ state, (limiter.after checks).states.get? tenant = some state →
      ∃ created, TenantState tier created state (history limiter tenant checks))
    (hnone : (limiter.after checks).states.get? tenant = none →
      history limiter tenant checks = []) (hst : s ≤ t) :
    (((history limiter tenant checks).countP fun c =>
        c.2 ∧ s ≤ c.1.refilled ∧ c.1.refilled ≤ t : ℕ) : ℚ) ≤
      (tierConfig tier).burstSize + (t - s) * (tierConfig tier).requestsPerMinute / 60 := by
  have hfair : ∃ created, ((tierConfig tier).bucket created).Fair
      ((history limiter tenant checks).map eventOf) := by
    cases hget : (limiter.after checks).states.get? tenant with
    | none => exact ⟨0, hnone hget ▸ trivial⟩
    | some state =>
      obtain ⟨created, hpast⟩ := hsome state hget
      exact ⟨created, hpast.tracked.fair⟩
  obtain ⟨created, hfair⟩ := hfair
  have hbound := hfair.takenIn_le_capacity (filled_bucket (tierConfig tier) created) hst
  rw [takenIn, countP_map] at hbound
  rw [mul_div_assoc]
  exact hbound

theorem history_unlimited (htier : tier = .unlimited)
    (hfixed : ∀ c ∈ checks, c.tenantId = tenant → limiter.effectiveTier c = tier) :
    ∀ c ∈ history limiter tenant checks, c.2 = true := by
  induction checks using List.reverseRecOn with
  | nil => exact fun c hc => absurd hc not_mem_nil
  | append_singleton checks check ih =>
    intro c hc
    rw [history_append] at hc
    rcases mem_append.mp hc with hc | hc
    · exact ih (fun c hc => hfixed c (mem_append_left _ hc)) c hc
    · split_ifs at hc with htenant
      · rw [mem_singleton.mp hc, RateLimiter.checkRateLimit, effectiveTier_after,
          hfixed check (by simp) htenant, if_pos htier]
      · exact absurd hc not_mem_nil

/-- The limits of a tier hold for all checks of a tenant; the unlimited tier lets everything
through. -/
theorem tenant_limits (hnew : limiter.states.get? tenant = none) (hclock : Monotone checks)
    (hfixed : ∀ c ∈ checks, c.tenantId = tenant → limiter.effectiveTier c = tier) :
    (tier ≠ .unlimited → TenantLimits limiter tier tenant checks) ∧
      (tier = .unlimited → ∀ c ∈ history limiter tenant checks, c.2 = true) := by
  refine ⟨fun htier => ?_, fun htier c hc => ?_⟩
  · obtain ⟨hsome, hnone⟩ := tenantState_after htier hnew hclock hfixed
    refine ⟨fun state hstate => ?_, fun s t hst => ?_, fun state hstate period => ?_,
      fun before check rest heq htenant hrejected => ?_⟩
    · obtain ⟨created, hpast⟩ := hsome state hstate
      have hcapacity : state.maxTokens = (tierConfig tier).burstSize :=
        (congrArg TokenBucket.capacity hpast.tracked.bucket_eq).trans
          (TokenBucket.capacity_foldl ..)
      exact ⟨hpast.tracked.filled.tokens_nonneg, hcapacity ▸ hpast.tracked.filled.tokens_le⟩
    · exact takenIn_history_le hsome hnone hst
    · obtain ⟨created, hpast⟩ := hsome state hstate
      exact ⟨created, hpast.created_eq, hpast.tracked.window_eq period,
        hpast.tracked.count_le period⟩
    · subst heq htenant
      have heffective := (effectiveTier_after limiter before check).trans
        (hfixed check (by simp) rfl)
      obtain ⟨hanswer, hstate⟩ := checkRateLimit_limited htier heffective
      rw [after_append, hstate]
      rw [hanswer] at hrejected
      rcases answer_cases (tierConfig tier)
          (((limiter.after before).ensureState check tier).idle check) check.retry with
        ⟨hok, -⟩ | ⟨-, hidle⟩
      · exact absurd (hok.symm.trans hrejected) (by decide)
      · rw [hidle]
  · exact history_unlimited htier hfixed c hc

def twoChecks : List Check :=
  [⟨"acme", none, 0, 0, 0, 0⟩, ⟨"acme", none, 1, 1, 1, 1⟩]

theorem tenant_limits_twoChecks : TenantLimits {} .standard "acme" twoChecks :=
  (tenant_limits rfl (by simp [Monotone, twoChecks, Check.readings])
    (by simp [twoChecks, RateLimiter.effectiveTier, RateLimiter.getTier])).1 (by decide)

theorem not_limits_unlimited :
    ¬ TenantLimits { defaultTier := .unlimited } .unlimited "acme" twoChecks := by
  intro h
  have hrate := h.rate 0 1 zero_le_one
  have hcount : (history { defaultTier := .unlimited } "acme" twoChecks).countP (fun c =>
      c.2 ∧ 0 ≤ c.1.refilled ∧ c.1.refilled ≤ 1) = 2 := by decide +kernel
  rw [hcount] at hrate
  norm_num [tierConfig] at hrate

end Runs

end Agent33.Security.TenantRateLimit
