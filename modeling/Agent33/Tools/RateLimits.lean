import Agent33.Library.Hoare
import Agent33.Library.RequestLimits
import Agent33.Tools.Governance

/-!
# The rate limits of tool calls

What the limiter keeps of the accepted requests decides as all of them would. Which requests
share a window is up to the caller: tool calls are counted by the first scope of their context.
-/

namespace Agent33.Tools.Governance

open Library SlidingWindow List

section Limiter

def RateLimiter.new (perMinute burst : ℤ) : RateLimiter := { perMinute, burst }

def RateLimiter.after (limiter : RateLimiter) (requests : List (String × ℤ)) : RateLimiter :=
  requests.foldl (fun limiter r => (limiter.check r.1 r.2).2) limiter

def RateLimiter.accepted (subject : String) (limiter : RateLimiter) :
    List (String × ℤ) → List ℤ
  | [] => []
  | r :: requests =>
    let rest := (limiter.check r.1 r.2).2.accepted subject requests
    if (limiter.check r.1 r.2).1 = true ∧ r.1 = subject then r.2 :: rest else rest

def limits (perMinute burst : ℤ) : List (ℤ × ℤ) := [(60000000, perMinute), (1000000, burst)]

def timesOf (subject : String) (requests : List (String × ℤ)) : List ℤ :=
  (requests.filter fun r => r.1 = subject).map Prod.snd

variable {perMinute burst : ℤ} {limiter : RateLimiter} {requests : List (String × ℤ)}

theorem timesOf_append (subject : String) (requests requests' : List (String × ℤ)) :
    timesOf subject (requests ++ requests') =
      timesOf subject requests ++ timesOf subject requests' := by
  simp [timesOf]

theorem timesOf_singleton (subject : String) (r : String × ℤ) :
    timesOf subject [r] = if r.1 = subject then [r.2] else [] := by
  by_cases h : r.1 = subject <;> simp [timesOf, h]

theorem timesOf_le (hle : ∀ r ∈ requests, r.2 ≤ now) (subject : String) :
    ∀ t ∈ timesOf subject requests, t ≤ now := by
  intro t ht
  obtain ⟨r, hr, rfl⟩ := mem_map.mp ht
  exact hle r (mem_of_mem_filter hr)

theorem pairwise_timesOf (hsorted : requests.Pairwise fun r r' => r.2 ≤ r'.2) (subject : String) :
    (timesOf subject requests).Pairwise (· ≤ ·) :=
  pairwise_map.mpr (hsorted.sublist filter_sublist)

structure Follows (perMinute burst : ℤ) (limiter : RateLimiter) (requests : List (String × ℤ)) :
    Prop where
  perMinute_eq : limiter.perMinute = perMinute
  burst_eq : limiter.burst = burst
  windows_eq : ∀ subject now, (∀ t ∈ timesOf subject requests, t ≤ now) →
    (limiter.windows.getD subject []).filter (fun t => now - 60000000 < t) =
      recent 60000000 (admittedOf (limits perMinute burst) (timesOf subject requests)) now

theorem follows_new (perMinute burst : ℤ) :
    Follows perMinute burst (RateLimiter.new perMinute burst) [] where
  perMinute_eq := rfl
  burst_eq := rfl
  windows_eq _ _ _ := rfl

theorem check_eq (limiter : RateLimiter) (subject : String) (now : ℤ) :
    let window := (limiter.windows.getD subject []).filter fun t => now - 60000000 < t
    let ok := decide ((window.length : ℤ) < limiter.perMinute ∧
      (window.countP (fun t => now - 1000000 < t) : ℤ) < limiter.burst)
    limiter.check subject now = (ok, { limiter with
      windows := limiter.windows.set subject (if ok then window ++ [now] else window) }) := by
  simp only [RateLimiter.check]
  split_ifs with hfull hok hok
  · simp only [decide_eq_true_eq] at hok
    omega
  · simp only [decide_eq_true_eq] at hok
    simp [hok]
  · simp only [decide_eq_true_eq] at hok
    simp [hok]
  · simp only [decide_eq_true_eq] at hok
    omega

theorem Follows.check (h : Follows perMinute burst limiter requests)
    (hle : ∀ t ∈ timesOf r.1 requests, t ≤ r.2) :
    (limiter.check r.1 r.2).1 = decide (Admits (limits perMinute burst)
        (admittedOf (limits perMinute burst) (timesOf r.1 requests)) r.2) ∧
      Follows perMinute burst (limiter.check r.1 r.2).2 (requests ++ [r]) := by
  have hadmitted : ∀ t ∈ admittedOf (limits perMinute burst) (timesOf r.1 requests), t ≤ r.2 :=
    fun t ht => hle t ((admittedOf_sublist _ _).subset ht)
  have hok : ((recent 60000000 (admittedOf (limits perMinute burst) (timesOf r.1 requests))
        r.2).length < perMinute ∧
      ((recent 60000000 (admittedOf (limits perMinute burst) (timesOf r.1 requests))
        r.2).countP (fun t => r.2 - 1000000 < t) : ℤ) < burst) ↔
      Admits (limits perMinute burst)
        (admittedOf (limits perMinute burst) (timesOf r.1 requests)) r.2 := by
    rw [length_recent hadmitted, countP_recent hadmitted (by omega)]
    simp [Admits, limits]
  rw [check_eq, h.windows_eq r.1 r.2 hle, h.perMinute_eq, h.burst_eq]
  simp only [hok, true_and, decide_eq_true_eq]
  refine ⟨rfl, rfl, fun subject now hnow => ?_⟩
  rw [timesOf_append, timesOf_singleton] at hnow ⊢
  rw [Dict.getD_set]
  by_cases heq : subject = r.1
  · subst heq
    simp only [↓reduceIte] at hnow ⊢
    have hlast : r.2 ≤ now := hnow r.2 (by simp)
    rw [admittedOf_append, accept, ← filter_recent hlast]
    split_ifs with hadmits
    · rw [recent_append (by omega)]
    · rfl
  · rw [if_neg heq, if_neg (Ne.symm heq), append_nil]
    rw [if_neg (Ne.symm heq), append_nil] at hnow
    exact h.windows_eq subject now hnow

theorem after_append (limiter : RateLimiter) (requests : List (String × ℤ)) (r : String × ℤ) :
    limiter.after (requests ++ [r]) = ((limiter.after requests).check r.1 r.2).2 := by
  rw [RateLimiter.after, foldl_append]
  rfl

theorem after_cons (limiter : RateLimiter) (r : String × ℤ) (requests : List (String × ℤ)) :
    limiter.after (r :: requests) = (limiter.check r.1 r.2).2.after requests := rfl

theorem accepted_append (subject : String) (limiter : RateLimiter)
    (requests : List (String × ℤ)) (r : String × ℤ) :
    limiter.accepted subject (requests ++ [r]) = limiter.accepted subject requests ++
      if ((limiter.after requests).check r.1 r.2).1 = true ∧ r.1 = subject then [r.2] else [] := by
  induction requests generalizing limiter with
  | nil => rfl
  | cons r' requests ih =>
    rw [cons_append, RateLimiter.accepted, RateLimiter.accepted, ih, after_cons]
    split_ifs <;> simp

theorem follows_after (hsorted : requests.Pairwise fun r r' => r.2 ≤ r'.2) :
    Follows perMinute burst ((RateLimiter.new perMinute burst).after requests) requests ∧
      ∀ subject, (RateLimiter.new perMinute burst).accepted subject requests =
        admittedOf (limits perMinute burst) (timesOf subject requests) := by
  induction requests using List.reverseRecOn with
  | nil => exact ⟨follows_new perMinute burst, fun _ => rfl⟩
  | append_singleton requests r ih =>
    obtain ⟨hsorted, -, hle⟩ := pairwise_append.mp hsorted
    obtain ⟨hfollows, haccepted⟩ := ih hsorted
    obtain ⟨hok, hnext⟩ := hfollows.check
      (timesOf_le (fun t ht => hle t ht r (mem_singleton_self r)) r.1)
    refine ⟨after_append _ requests r ▸ hnext, fun subject => ?_⟩
    rw [accepted_append, haccepted, hok, timesOf_append, timesOf_singleton]
    by_cases heq : r.1 = subject
    · subst heq
      rw [if_pos rfl, admittedOf_append, accept]
      split_ifs with hboth hadmits hadmits <;> simp_all
    · simp [heq]

structure Limits (perMinute burst : ℤ) (requests : List (String × ℤ)) : Prop where
  bounded : ∀ subject t,
    (countIn 60000000 ((RateLimiter.new perMinute burst).accepted subject requests) t : ℤ) ≤
        max perMinute 0 ∧
      (countIn 1000000 ((RateLimiter.new perMinute burst).accepted subject requests) t : ℤ) ≤
        max burst 0
  rejects_iff : ∀ before r rest, requests = before ++ r :: rest →
    ((((RateLimiter.new perMinute burst).after before).check r.1 r.2).1 = false ↔
      perMinute ≤
          countIn 60000000 ((RateLimiter.new perMinute burst).accepted r.1 before) r.2 ∨
        burst ≤ countIn 1000000 ((RateLimiter.new perMinute burst).accepted r.1 before) r.2)
  free : ∀ before r rest, requests = before ++ r :: rest →
    (((RateLimiter.new perMinute burst).after before).check r.1 r.2).1 = false →
      ∀ subject, (RateLimiter.new perMinute burst).accepted subject requests =
        (RateLimiter.new perMinute burst).accepted subject (before ++ rest)

theorem check_iff (hsorted : requests.Pairwise fun r r' => r.2 ≤ r'.2)
    (heq : requests = before ++ r :: rest) :
    (((RateLimiter.new perMinute burst).after before).check r.1 r.2).1 = false ↔
      ¬ Admits (limits perMinute burst)
        (admittedOf (limits perMinute burst) (timesOf r.1 before)) r.2 := by
  subst heq
  obtain ⟨hbefore, -, hle⟩ := pairwise_append.mp hsorted
  have hfollows : Follows perMinute burst _ before := (follows_after hbefore).1
  have hok := (hfollows.check (timesOf_le (fun t ht => hle t ht r mem_cons_self) r.1)).1
  rw [hok, decide_eq_false_iff_not]

theorem limits_hold (perMinute burst : ℤ) (hsorted : requests.Pairwise fun r r' => r.2 ≤ r'.2) :
    Limits perMinute burst requests where
  bounded subject t := by
    rw [(follows_after hsorted).2]
    have hbound : ∀ limit ∈ limits perMinute burst, _ := fun limit hlimit =>
      countIn_admittedOf_le (pairwise_timesOf hsorted subject) hlimit t
    exact ⟨hbound (60000000, perMinute) (by simp [limits]),
      hbound (1000000, burst) (by simp [limits])⟩
  rejects_iff before r rest heq := by
    have hbefore := (pairwise_append.mp (heq ▸ hsorted)).1
    rw [check_iff hsorted heq, (follows_after hbefore).2, Admits]
    simp [limits]
    omega
  free before r rest heq hrejected subject := by
    have hsorted' : (before ++ rest).Pairwise fun r r' => r.2 ≤ r'.2 := by
      rw [heq] at hsorted
      exact hsorted.sublist ((sublist_cons_self r rest).append_left before)
    have hnot := (check_iff hsorted heq).mp hrejected
    rw [(follows_after hsorted).2, (follows_after hsorted').2, heq, ← singleton_append,
      timesOf_append, timesOf_append, timesOf_append, timesOf_singleton]
    by_cases hsubject : r.1 = subject
    · subst hsubject
      rw [if_pos rfl]
      exact admittedOf_dropped hnot _
    · rw [if_neg hsubject, nil_append]

end Limiter

section WorldOnly

variable {W α β : Type}

def inWorld (y : EStateM Exn W α) : GovernanceM W α :=
  Hoare.zoom GovernanceState.world (fun world s => { s with world }) y

theorem inWorld_bind (y : EStateM Exn W α) (g : α → EStateM Exn W β) :
    inWorld (y >>= g) = inWorld y >>= fun a => inWorld (g a) := by
  refine Hoare.zoom_bind ?_ ?_ y g
  · intro world s
    rfl
  · intro world world' s
    rfl

def WorldOnly (x : GovernanceM W α) : Prop := ∃ y : EStateM Exn W α, x = inWorld y

theorem worldOnly_pure (a : α) : WorldOnly (pure a : GovernanceM W α) :=
  ⟨pure a, (Hoare.zoom_pure (fun _ => rfl) a).symm⟩

theorem worldOnly_throw (e : Exn) : WorldOnly (throw e : GovernanceM W α) :=
  ⟨throw e, (Hoare.zoom_throw (fun _ => rfl) e).symm⟩

theorem WorldOnly.bind (hx : WorldOnly x) (hf : ∀ a, WorldOnly (f a)) : WorldOnly (x >>= f) := by
  obtain ⟨y, rfl⟩ := hx
  choose g hg using hf
  exact ⟨y >>= g, by rw [inWorld_bind, funext hg]⟩

theorem worldOnly_onWorld (f : W → α × W) : WorldOnly (onWorld f) :=
  ⟨fun world => .ok (f world).1 (f world).2, rfl⟩

theorem worldOnly_tryConsumeApproval (governance : ToolGovernance W) (params : Json)
    (toolName operation : Text) (tenantId : String) (consume : Bool) :
    WorldOnly (tryConsumeApproval governance params toolName operation tenantId consume) := by
  rw [tryConsumeApproval]
  split
  · apply (worldOnly_onWorld _).bind
    intro payload
    split
    · exact worldOnly_pure false
    · split_ifs
      · exact worldOnly_pure true
      · exact worldOnly_onWorld _
    · split
      · exact worldOnly_onWorld _
      · apply (worldOnly_onWorld _).bind
        intro consumed
        split_ifs
        · exact worldOnly_pure false
        · exact worldOnly_pure true
        · exact worldOnly_onWorld _
  · split
    · split_ifs
      · exact worldOnly_onWorld _
      · exact worldOnly_onWorld _
    · exact worldOnly_pure false

variable (python : Python) (governance : ToolGovernance W) (params : Json)
  (toolName operation : Text) (context : ToolContext)

theorem worldOnly_approvedOrRequested (reason : ApprovalReason)
    (details : Text) (riskTier : ApprovalRiskTier) :
    WorldOnly (approvedOrRequested python governance params toolName operation context reason
      details riskTier) := by
  apply (worldOnly_tryConsumeApproval ..).bind
  intro approved
  split_ifs
  · exact worldOnly_pure true
  · refine WorldOnly.bind ?_ fun _ => worldOnly_pure false
    rw [requestApproval]
    split
    · exact worldOnly_pure _
    · split
      · exact worldOnly_throw _
      · exact ⟨fun world => .ok ⟨⟩ _, rfl⟩

theorem worldOnly_checkPolicies :
    WorldOnly (checkPolicies python governance params toolName operation context) := by
  rw [checkPolicies]
  split
  · exact worldOnly_pure _
  · split_ifs
    · exact worldOnly_pure _
    · exact (worldOnly_approvedOrRequested ..).bind fun _ => worldOnly_pure _
    · exact worldOnly_pure _

theorem worldOnly_checkAutonomy (level : Option AutonomyLevel)
    (approved : Bool) :
    WorldOnly
      (checkAutonomy python governance params toolName operation context level approved) := by
  cases level with
  | none => exact worldOnly_pure _
  | some level =>
    cases level with
    | readOnly => exact worldOnly_pure _
    | supervised =>
      rw [checkAutonomy]
      split_ifs
      · exact (worldOnly_approvedOrRequested ..).bind fun _ => worldOnly_pure _
      · exact worldOnly_pure _
    | full => exact worldOnly_pure _

theorem inWorld_run (y : EStateM Exn W α) (limiter : RateLimiter) (world : W) :
    (inWorld y).run ⟨limiter, world⟩ = match y.run world with
      | .ok a world' => .ok a ⟨limiter, world'⟩
      | .error e world' => .error e ⟨limiter, world'⟩ := by
  rw [inWorld, Hoare.zoom_run]
  cases y.run world <;> rfl

end WorldOnly

section Calls

variable {W : Type}

structure Call (W : Type) where
  governance : ToolGovernance W
  toolName : Text
  params : Json
  context : ToolContext
  level : Option AutonomyLevel := none
  world : W

def subject (context : ToolContext) : String := context.userScopes.headD "__anon__"

variable (python : Python) (limiter : RateLimiter) (call : Call W) (now : ℤ)

def Call.run : EStateM.Result Exn (GovernanceState W) Bool :=
  (preExecuteCheck python call.governance now call.toolName call.params call.context
    call.level).run ⟨limiter, call.world⟩

def Call.passesPolicies : Bool :=
  match resolveOperation python call.toolName call.params with
  | .error _ => false
  | .ok operation =>
    match (checkPolicies python call.governance call.params call.toolName operation
        call.context).run ⟨limiter, call.world⟩ with
    | .ok (some _) _ => true
    | _ => false

def Call.RateLimited : Prop :=
  call.passesPolicies python limiter = true ∧
    (limiter.check (subject call.context) now).1 = false

def limiterOf : EStateM.Result Exn (GovernanceState W) Bool → RateLimiter
  | .ok _ s => s.limiter
  | .error _ s => s.limiter

theorem WorldOnly.limiterOf (h : WorldOnly x) (limiter : RateLimiter)
    (world : W) : limiterOf (x.run ⟨limiter, world⟩) = limiter := by
  obtain ⟨y, rfl⟩ := h
  rw [inWorld_run]
  cases y.run world <;> rfl

theorem passesPolicies_eq (limiter' : RateLimiter) :
    call.passesPolicies python limiter = call.passesPolicies python limiter' := by
  rw [Call.passesPolicies, Call.passesPolicies]
  cases resolveOperation python call.toolName call.params with
  | error e => rfl
  | ok operation =>
    obtain ⟨y, hy⟩ := worldOnly_checkPolicies python call.governance call.params call.toolName
      operation call.context
    simp only [hy, inWorld_run]
    cases y.run call.world with
    | ok passed world => cases passed <;> rfl
    | error e world => rfl

theorem checkRate_bind (subject : String) (f : Bool → GovernanceM W Bool) (world : W) :
    (checkRate subject now >>= f).run ⟨limiter, world⟩ =
      (f (limiter.check subject now).1).run ⟨(limiter.check subject now).2, world⟩ := rfl

theorem run_spec :
    limiterOf (call.run python limiter now) =
        (if call.passesPolicies python limiter then (limiter.check (subject call.context) now).2
        else limiter) ∧
      (call.RateLimited python limiter now → ∃ s, call.run python limiter now = .ok false s) := by
  rw [Call.run, Call.RateLimited, Call.passesPolicies, preExecuteCheck]
  cases resolveOperation python call.toolName call.params with
  | error e => exact ⟨rfl, fun h => absurd h.1 Bool.false_ne_true⟩
  | ok operation =>
    obtain ⟨y, hy⟩ := worldOnly_checkPolicies python call.governance call.params call.toolName
      operation call.context
    simp only [hy, EStateM.run_bind, inWorld_run]
    cases y.run call.world with
    | error e world => exact ⟨rfl, fun h => absurd h.1 Bool.false_ne_true⟩
    | ok passed world =>
      cases passed with
      | none => exact ⟨rfl, fun h => absurd h.1 Bool.false_ne_true⟩
      | some approved =>
        simp only [↓reduceIte, subject]
        rw [checkRate_bind]
        cases hok : (limiter.check (call.context.userScopes.headD "__anon__") now).1 with
        | false => exact ⟨rfl, fun _ => ⟨_, rfl⟩⟩
        | true =>
          refine ⟨WorldOnly.limiterOf ?_ _ world, fun h => by simp at h⟩
          apply (worldOnly_checkAutonomy ..).bind
          intro approved
          split
          · exact worldOnly_pure false
          · split
            · exact worldOnly_pure false
            · split
              · exact worldOnly_throw _
              · exact worldOnly_pure false
              · split
                · exact worldOnly_tryConsumeApproval ..
                · exact worldOnly_pure true

end Calls

section Runs

variable {W R : Type} [DecidableEq R]

def limiterAfter (python : Python) (limiter : RateLimiter) (calls : List (Call W × ℤ)) :
    RateLimiter :=
  calls.foldl (fun limiter c => limiterOf (c.1.run python limiter c.2)) limiter

/-- No call is rejected by the rate limit unless the calls of its own requester alone have it
rejected. -/
def Isolated (who : ToolContext → R) (python : Python) (limiter : RateLimiter)
    (calls : List (Call W × ℤ)) : Prop :=
  ∀ before c rest, calls = before ++ c :: rest →
    c.1.RateLimited python (limiterAfter python limiter before) c.2 →
      c.1.RateLimited python (limiterAfter python limiter
        (before.filter fun b => who b.1.context = who c.1.context)) c.2

def requestsOf (python : Python) (limiter : RateLimiter) (calls : List (Call W × ℤ)) :
    List (String × ℤ) :=
  (calls.filter fun c => c.1.passesPolicies python limiter).map fun c =>
    (subject c.1.context, c.2)

variable {who : ToolContext → R} {python : Python} {perMinute burst : ℤ}
  {calls before : List (Call W × ℤ)} {c : Call W × ℤ}

theorem limiterAfter_eq (python : Python) (limiter limiter' : RateLimiter)
    (calls : List (Call W × ℤ)) :
    limiterAfter python limiter calls = limiter.after (requestsOf python limiter' calls) := by
  induction calls generalizing limiter with
  | nil => rfl
  | cons c calls ih =>
    rw [limiterAfter, foldl_cons, ← limiterAfter, ih, (run_spec python limiter c.1 c.2).1,
      passesPolicies_eq python limiter c.1 limiter', requestsOf, requestsOf]
    cases hpasses : c.1.passesPolicies python limiter' with
    | false => simp [hpasses]
    | true => simp [hpasses, after_cons]

theorem pairwise_requestsOf (python : Python) (hsorted : calls.Pairwise fun c c' => c.2 ≤ c'.2)
    (limiter : RateLimiter) :
    (requestsOf python limiter calls).Pairwise fun r r' => r.2 ≤ r'.2 :=
  pairwise_map.mpr (hsorted.sublist filter_sublist)

theorem requestsOf_le (hle : ∀ b ∈ before, b.2 ≤ c.2) (limiter : RateLimiter) :
    ∀ r ∈ requestsOf python limiter before, r.2 ≤ c.2 := by
  intro r hr
  obtain ⟨b, hb, rfl⟩ := mem_map.mp hr
  exact hle b (mem_of_mem_filter hb)

open RateLimiter in
theorem rateLimited_iff (hsorted : before.Pairwise fun c c' => c.2 ≤ c'.2)
    (hle : ∀ b ∈ before, b.2 ≤ c.2) :
    c.1.RateLimited python (limiterAfter python (new perMinute burst) before) c.2 ↔
      c.1.passesPolicies python (new perMinute burst) = true ∧
        ¬ Admits (limits perMinute burst) (admittedOf (limits perMinute burst)
          (timesOf (subject c.1.context)
            (requestsOf python (new perMinute burst) before))) c.2 := by
  have hrequests := pairwise_requestsOf python hsorted (new perMinute burst)
  have hfollows : Follows perMinute burst _ _ := (follows_after hrequests).1
  have hok := (hfollows.check (r := (subject c.1.context, c.2))
    (timesOf_le (requestsOf_le hle _) _)).1
  rw [Call.RateLimited, limiterAfter_eq python _ (new perMinute burst),
    passesPolicies_eq python _ c.1 (new perMinute burst), hok,
    decide_eq_false_iff_not]

theorem not_admits_of_le {admitted : List ℤ} {now : ℤ} (h : perMinute ≤ 0 ∨ burst ≤ 0) :
    ¬ Admits (limits perMinute burst) admitted now := by
  simp only [Admits, limits, mem_cons, not_mem_nil, or_false, forall_eq_or_imp,
    forall_eq]
  omega

theorem admits_nil (hperMinute : 0 < perMinute) (hburst : 0 < burst) (now : ℤ) :
    Admits (limits perMinute burst) [] now := by
  simpa [Admits, limits, countIn] using ⟨hperMinute, hburst⟩

theorem not_admits_replicate (perMinute burst now : ℤ) :
    ¬ Admits (limits perMinute burst)
      (admittedOf (limits perMinute burst) (List.replicate perMinute.toNat now)) now := by
  intro hadmits
  have hlimit := hadmits (60000000, perMinute) (by simp [limits])
  rw [admittedOf_replicate hadmits, countIn, countP_replicate] at hlimit
  simp at hlimit

theorem timesOf_own (hown : ∀ b ∈ before,
      b.1.passesPolicies python (RateLimiter.new perMinute burst) = true →
        subject b.1.context = subject c.1.context → who b.1.context = who c.1.context) :
    timesOf (subject c.1.context) (requestsOf python (RateLimiter.new perMinute burst)
        (before.filter fun b => who b.1.context = who c.1.context)) =
      timesOf (subject c.1.context)
        (requestsOf python (RateLimiter.new perMinute burst) before) := by
  simp only [timesOf, requestsOf, filter_map, filter_filter]
  refine congrArg (fun calls => List.map Prod.snd (List.map _ calls)) ?_
  apply filter_congr
  intro b hb
  have hbwho := hown b hb
  simp only [Function.comp_apply]
  grind

/-- The limits hold in any case; calls are isolated exactly when no two requesters share a first
scope, unless the limits reject every call. -/
theorem rateLimits_iff (python : Python) (who : ToolContext → R) (perMinute burst : ℤ)
    (callers : Set (Call W)) :
    ((∀ requests : List (String × ℤ), requests.Pairwise (fun r r' => r.2 ≤ r'.2) →
        Limits perMinute burst requests) ∧
      ∀ calls : List (Call W × ℤ), (∀ c ∈ calls, c.1 ∈ callers) →
        calls.Pairwise (fun c c' => c.2 ≤ c'.2) →
          Isolated who python (RateLimiter.new perMinute burst) calls) ↔
      (perMinute ≤ 0 ∨ burst ≤ 0 ∨ ∀ c ∈ callers, ∀ c' ∈ callers,
        c.passesPolicies python (RateLimiter.new perMinute burst) = true →
        c'.passesPolicies python (RateLimiter.new perMinute burst) = true →
          subject c.context = subject c'.context → who c.context = who c'.context) := by
  constructor
  · rintro ⟨-, hisolated⟩
    by_contra hnot
    push Not at hnot
    obtain ⟨hperMinute, hburst, c, hc, c', hc', hpasses, hpasses', hsubject, hwho⟩ := hnot
    have hsorted : (List.replicate perMinute.toNat ((c, 0) : Call W × ℤ)).Pairwise
        fun c c' => c.2 ≤ c'.2 := pairwise_replicate.mpr (.inr le_rfl)
    have hle : ∀ b ∈ List.replicate perMinute.toNat ((c, 0) : Call W × ℤ),
        b.2 ≤ ((c', 0) : Call W × ℤ).2 := by
      intro b hb
      rw [eq_of_mem_replicate hb]
    have hlimited := hisolated (List.replicate perMinute.toNat (c, 0) ++ [(c', 0)]) (by
      intro b hb
      rcases mem_append.mp hb with hb | hb
      · rw [eq_of_mem_replicate hb]
        exact hc
      · rw [mem_singleton.mp hb]
        exact hc') (by
      refine pairwise_append.mpr ⟨hsorted, pairwise_singleton .., fun b hb d hd => ?_⟩
      rw [mem_singleton.mp hd]
      exact hle b hb) _ (c', 0) [] rfl
    rw [rateLimited_iff hsorted hle] at hlimited
    have hfull := hlimited ⟨hpasses', by
      rw [← hsubject]
      simpa [requestsOf, timesOf, hpasses] using not_admits_replicate perMinute burst 0⟩
    have hown : (List.replicate perMinute.toNat ((c, 0) : Call W × ℤ)).filter
        (fun b => who b.1.context = who c'.context) = [] := by
      simp [hwho]
    rw [hown, rateLimited_iff .nil (by simp)] at hfull
    exact hfull.2 (admits_nil hperMinute hburst 0)
  · intro hcond
    refine ⟨fun requests hsorted => limits_hold perMinute burst hsorted, ?_⟩
    rintro calls hcallers hsorted before c rest rfl hlimited
    obtain ⟨hbefore, -, hle⟩ := pairwise_append.mp hsorted
    have hle' : ∀ b ∈ before, b.2 ≤ c.2 := fun b hb => hle b hb c mem_cons_self
    rw [rateLimited_iff hbefore hle'] at hlimited
    rw [rateLimited_iff (hbefore.sublist filter_sublist)
      fun b hb => hle' b (mem_of_mem_filter hb)]
    refine ⟨hlimited.1, ?_⟩
    rw [← or_assoc] at hcond
    rcases hcond with htrivial | hcond
    · exact not_admits_of_le htrivial
    · rw [timesOf_own fun b hb hpasses => hcond b.1 (hcallers b (by simp [hb])) c.1
        (hcallers c (by simp)) hpasses hlimited.1]
      exact hlimited.2

def scopedCall (requestedBy : String) : Call Unit where
  governance := {}
  toolName := "web_search".toList
  params := .obj []
  context := { userScopes := ["tools:execute"], requestedBy }
  world := ()

/-- Ten calls of one requester in a second have the first call of another one rejected. -/
theorem not_isolated_scopedCall :
    ¬ Isolated ToolContext.requestedBy (asciiPython []) (RateLimiter.new 60 10)
      (List.replicate 10 (scopedCall "ann", 0) ++ [(scopedCall "bob", 0)]) := by
  intro h
  have hbob := h (List.replicate 10 (scopedCall "ann", 0)) (scopedCall "bob", 0) [] rfl
    ⟨by decide, by decide +kernel⟩
  exact absurd hbob.2 (by decide)

end Runs

end Agent33.Tools.Governance
