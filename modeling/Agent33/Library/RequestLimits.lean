import Mathlib.Algebra.Order.Field.Basic
import Mathlib.Data.List.Count
import Mathlib.Data.List.Induction
import Mathlib.Tactic.Linarith
import Mathlib.Tactic.Ring

/-!
# Sliding windows

Requests are admitted as long as fewer than a number of them were admitted in the span of time
that ends with the request, for each of some limits. No window of that span, wherever it lies,
then holds more. What has left the longest span may be forgotten.
-/

namespace Agent33.Library.SlidingWindow

open List

variable {T : Type*} [AddCommGroup T] [LinearOrder T]

/-- The number of the times in `(t - span, t]`. -/
def countIn (span : T) (times : List T) (t : T) : ℕ :=
  times.countP fun x => t - span < x ∧ x ≤ t

/-- Every limit, a span and a number, leaves room for a request. -/
def Admits (limits : List (T × ℤ)) (admitted : List T) (now : T) : Prop :=
  ∀ limit ∈ limits, (countIn limit.1 admitted now : ℤ) < limit.2

instance (limits : List (T × ℤ)) (admitted : List T) (now : T) :
    Decidable (Admits limits admitted now) :=
  inferInstanceAs (Decidable (∀ limit ∈ limits, _))

def accept (limits : List (T × ℤ)) (admitted : List T) (now : T) : List T :=
  if Admits limits admitted now then admitted ++ [now] else admitted

def admittedOf (limits : List (T × ℤ)) (times : List T) : List T := times.foldl (accept limits) []

variable {admitted times : List T} {now : T}

theorem countIn_append (span : T) (times times' : List T) (t : T) :
    countIn span (times ++ times') t = countIn span times t + countIn span times' t :=
  countP_append

theorem countIn_eq (hle : ∀ x ∈ times, x ≤ now) (span : T) :
    countIn span times now = times.countP fun x => now - span < x := by
  apply countP_congr
  intro x hx
  simp [hle x hx]

theorem admittedOf_append (limits : List (T × ℤ)) (times : List T) (now : T) :
    admittedOf limits (times ++ [now]) = accept limits (admittedOf limits times) now := by
  rw [admittedOf, foldl_append]
  rfl

theorem admittedOf_sublist (limits : List (T × ℤ)) (times : List T) :
    (admittedOf limits times).Sublist times := by
  induction times using List.reverseRecOn with
  | nil => exact List.Sublist.slnil
  | append_singleton times now ih =>
    rw [admittedOf_append, accept]
    split_ifs
    · exact ih.append_right [now]
    · exact ih.trans (sublist_append_left times [now])

theorem admittedOf_dropped (h : ¬ Admits limits (admittedOf limits times) now) (rest : List T) :
    admittedOf limits (times ++ now :: rest) = admittedOf limits (times ++ rest) := by
  rw [admittedOf, foldl_append, ← admittedOf, foldl_cons, accept, if_neg h, admittedOf,
    admittedOf, foldl_append]

theorem admittedOf_replicate (h : Admits limits (admittedOf limits (List.replicate n now)) now) :
    admittedOf limits (List.replicate n now) = List.replicate n now := by
  induction n with
  | zero => rfl
  | succ n ih =>
    rw [replicate_succ', admittedOf_append, accept] at h ⊢
    split_ifs at h ⊢ with hbefore
    · rw [ih hbefore]
    · exact absurd h hbefore

section Ordered

variable [IsOrderedAddMonoid T]

theorem countIn_le (hle : ∀ x ∈ times, x ≤ now) (span : T) (hnow : now ≤ t) :
    countIn span times t ≤ countIn span times now := by
  apply countP_mono_left
  intro x hx h
  simp only [decide_eq_true_eq] at h ⊢
  exact ⟨(sub_le_sub_right hnow span).trans_lt h.1, hle x hx⟩

theorem countIn_accept_le (hle : ∀ x ∈ admitted, x ≤ now) (hlimit : limit ∈ limits)
    (hbound : ∀ t, (countIn limit.1 admitted t : ℤ) ≤ max limit.2 0) (t : T) :
    (countIn limit.1 (accept limits admitted now) t : ℤ) ≤ max limit.2 0 := by
  rw [accept]
  split_ifs with hadmits
  · rw [countIn_append]
    by_cases hin : t - limit.1 < now ∧ now ≤ t
    · have hone : countIn limit.1 [now] t = 1 := by simp [countIn, hin]
      have hroom := hadmits limit hlimit
      have hother := countIn_le hle limit.1 hin.2
      omega
    · have hzero : countIn limit.1 [now] t = 0 := by simpa [countIn] using hin
      have := hbound t
      omega
  · exact hbound t

theorem countIn_admittedOf_le (hsorted : times.Pairwise (· ≤ ·)) (hlimit : limit ∈ limits) (t : T) :
    (countIn limit.1 (admittedOf limits times) t : ℤ) ≤ max limit.2 0 := by
  induction times using List.reverseRecOn generalizing t with
  | nil => simp [countIn, admittedOf]
  | append_singleton times now ih =>
    obtain ⟨hsorted, -, hle⟩ := pairwise_append.mp hsorted
    rw [admittedOf_append]
    refine countIn_accept_le (fun x hx => ?_) hlimit (ih hsorted) t
    exact hle x ((admittedOf_sublist limits times).subset hx) now (mem_singleton_self now)

end Ordered

section Forgetting

variable {long last : T}

/-- What is remembered at a time: the admitted requests of the longest span. -/
def recent (long : T) (admitted : List T) (last : T) : List T :=
  admitted.filter fun x => last - long < x

theorem length_recent (hle : ∀ x ∈ admitted, x ≤ now) :
    (recent long admitted now).length = countIn long admitted now := by
  rw [countIn_eq hle, recent, countP_eq_length_filter]

variable [IsOrderedAddMonoid T]

theorem filter_recent (hlast : last ≤ now) :
    (recent long admitted last).filter (fun x => now - long < x) = recent long admitted now := by
  rw [recent, recent, filter_filter]
  apply filter_congr
  intro x hx
  have := sub_le_sub_right hlast long
  simp only [Bool.and_eq_left_iff_imp, decide_eq_true_eq]
  exact fun h => this.trans_lt h

theorem countP_recent (hle : ∀ x ∈ admitted, x ≤ now) {span : T} (hspan : span ≤ long) :
    (recent long admitted now).countP (fun x => now - span < x) = countIn span admitted now := by
  rw [countIn_eq hle, recent, countP_filter]
  apply countP_congr
  intro x hx
  simp only [Bool.and_eq_true, decide_eq_true_eq, and_iff_left_iff_imp]
  exact fun h => (sub_le_sub_left hspan now).trans_lt h

theorem recent_append (hlong : 0 < long) :
    recent long (admitted ++ [now]) now = recent long admitted now ++ [now] := by
  simp [recent, hlong]

end Forgetting

end Agent33.Library.SlidingWindow

/-!
## Token buckets

A bucket fills up with time, up to its capacity, and every request that is let through takes a
token. In a span of time no more are let through than the bucket holds and receives in it.
-/

namespace Agent33.Library

structure TokenBucket (𝕜 : Type*) where
  capacity : 𝕜
  rate : 𝕜
  tokens : 𝕜
  last : 𝕜

namespace TokenBucket

section Taken

variable {𝕜 : Type*} [LinearOrder 𝕜] {t : 𝕜} {events : List (𝕜 × Bool)}

/-- The number of tokens taken in `[s, t]`. -/
def takenIn (s t : 𝕜) (events : List (𝕜 × Bool)) : ℕ :=
  events.countP fun e => e.2 ∧ s ≤ e.1 ∧ e.1 ≤ t

theorem takenIn_cons (s t : 𝕜) (event : 𝕜 × Bool) (events : List (𝕜 × Bool)) :
    takenIn s t (event :: events) =
      takenIn s t events + if event.2 ∧ s ≤ event.1 ∧ event.1 ≤ t then 1 else 0 := by
  simp [takenIn, List.countP_cons]

theorem takenIn_eq_zero (h : ∀ e ∈ events, t < e.1) (s : 𝕜) : takenIn s t events = 0 := by
  rw [takenIn, List.countP_eq_zero]
  intro e he
  simp only [decide_eq_true_eq]
  exact fun hin => absurd hin.2.2 (not_le.mpr (h e he))

end Taken

variable {𝕜 : Type*} [Field 𝕜] [LinearOrder 𝕜]

def refill (bucket : TokenBucket 𝕜) (now : 𝕜) : TokenBucket 𝕜 :=
  { bucket with
    tokens := min bucket.capacity (bucket.tokens + (now - bucket.last) * bucket.rate)
    last := now }

def step (bucket : TokenBucket 𝕜) (event : 𝕜 × Bool) : TokenBucket 𝕜 :=
  { bucket.refill event.1 with
    tokens := (bucket.refill event.1).tokens - if event.2 then 1 else 0 }

/-- The requests come one after the other, and take a token only when there is one. -/
def Fair : TokenBucket 𝕜 → List (𝕜 × Bool) → Prop
  | _, [] => True
  | bucket, event :: events =>
    bucket.last ≤ event.1 ∧ (event.2 = true → 1 ≤ (bucket.refill event.1).tokens) ∧
      Fair (bucket.step event) events

variable {bucket : TokenBucket 𝕜} {events : List (𝕜 × Bool)}

theorem fair_append {event : 𝕜 × Bool} : bucket.Fair (events ++ [event]) ↔ bucket.Fair events ∧
      (events.foldl step bucket).last ≤ event.1 ∧
      (event.2 = true → 1 ≤ ((events.foldl step bucket).refill event.1).tokens) := by
  induction events generalizing bucket with
  | nil => simp [Fair]
  | cons first events ih => simp [Fair, ih, and_assoc]

theorem last_foldl_le (hlast : bucket.last ≤ t) (hle : ∀ e ∈ events, e.1 ≤ t) :
    (events.foldl step bucket).last ≤ t := by
  induction events generalizing bucket with
  | nil => exact hlast
  | cons event events ih =>
    exact ih (hle event List.mem_cons_self) fun e he => hle e (List.mem_cons_of_mem _ he)

theorem capacity_foldl (bucket : TokenBucket 𝕜) (events : List (𝕜 × Bool)) :
    (events.foldl step bucket).capacity = bucket.capacity := by
  induction events generalizing bucket with
  | nil => rfl
  | cons event events ih => exact ih (bucket.step event)

structure Filled (bucket : TokenBucket 𝕜) : Prop where
  rate_nonneg : 0 ≤ bucket.rate
  tokens_nonneg : 0 ≤ bucket.tokens
  tokens_le : bucket.tokens ≤ bucket.capacity

theorem Fair.last_le (h : bucket.Fair events) : ∀ e ∈ events, bucket.last ≤ e.1 := by
  induction events generalizing bucket with
  | nil => simp
  | cons event events ih =>
    obtain ⟨hlast, -, hrest⟩ := h
    intro e he
    rcases List.mem_cons.mp he with rfl | he
    · exact hlast
    · exact hlast.trans (ih hrest e he)

theorem Fair.last_le_of_cons (h : bucket.Fair (event :: events)) :
    ∀ e ∈ event :: events, event.1 ≤ e.1 := by
  intro e he
  rcases List.mem_cons.mp he with rfl | he
  · exact le_rfl
  · exact h.2.2.last_le e he

section Ordered

variable [IsStrictOrderedRing 𝕜]

theorem Filled.refill (h : bucket.Filled) (hlast : bucket.last ≤ now) :
    (bucket.refill now).Filled where
  rate_nonneg := h.rate_nonneg
  tokens_nonneg := le_min (h.tokens_nonneg.trans h.tokens_le)
    (add_nonneg h.tokens_nonneg (mul_nonneg (sub_nonneg.mpr hlast) h.rate_nonneg))
  tokens_le := min_le_left _ _

theorem Filled.step (h : bucket.Filled) (hlast : bucket.last ≤ event.1)
    (htaken : event.2 = true → 1 ≤ (bucket.refill event.1).tokens) :
    (bucket.step event).Filled where
  rate_nonneg := h.rate_nonneg
  tokens_nonneg := by
    rw [TokenBucket.step]
    split_ifs with htake
    · exact sub_nonneg.mpr (htaken htake)
    · exact (sub_zero (bucket.refill event.1).tokens).symm ▸ (h.refill hlast).tokens_nonneg
  tokens_le := by
    have hle := (h.refill hlast).tokens_le
    rw [TokenBucket.step]
    split_ifs
    · exact (sub_le_self _ zero_le_one).trans hle
    · rwa [sub_zero]

theorem Fair.filled (h : bucket.Fair events) (hfilled : bucket.Filled) :
    (events.foldl TokenBucket.step bucket).Filled := by
  induction events generalizing bucket with
  | nil => exact hfilled
  | cons event events ih => exact ih h.2.2 (hfilled.step h.1 h.2.1)

theorem takenIn_cons_le (s : 𝕜) (h : (takenIn s t events : 𝕜) ≤
      (bucket.step event).tokens + (t - event.1) * bucket.rate) :
    (takenIn s t (event :: events) : 𝕜) ≤
      (bucket.refill event.1).tokens + (t - event.1) * bucket.rate := by
  have hone : ((if event.2 ∧ s ≤ event.1 ∧ event.1 ≤ t then 1 else 0 : ℕ) : 𝕜) ≤
      if event.2 then 1 else 0 := by
    split_ifs with hin htake htake
    · simp
    · exact absurd hin.1 htake
    · simp
    · simp
  rw [takenIn_cons, Nat.cast_add]
  calc (takenIn s t events : 𝕜) + _
      ≤ (bucket.refill event.1).tokens - (if event.2 then 1 else 0) +
          (t - event.1) * bucket.rate + if event.2 then 1 else 0 := add_le_add h hone
    _ = (bucket.refill event.1).tokens + (t - event.1) * bucket.rate := by ring

theorem Fair.takenIn_le (h : bucket.Fair events) (hfilled : bucket.Filled)
    (hlast : bucket.last ≤ t) (s : 𝕜) :
    (takenIn s t events : 𝕜) ≤ bucket.tokens + (t - bucket.last) * bucket.rate := by
  have hnone : 0 ≤ bucket.tokens + (t - bucket.last) * bucket.rate :=
    add_nonneg hfilled.tokens_nonneg (mul_nonneg (sub_nonneg.mpr hlast) hfilled.rate_nonneg)
  induction events generalizing bucket with
  | nil => simpa [takenIn] using hnone
  | cons event events ih =>
    have hall := h.last_le_of_cons
    obtain ⟨hevent, htaken, hrest⟩ := h
    by_cases hlate : t < event.1
    · rw [takenIn_eq_zero fun e he => hlate.trans_le (hall e he)]
      simpa using hnone
    · have hnext := hfilled.step hevent htaken
      have hin : event.1 ≤ t := not_lt.mp hlate
      have hbound := takenIn_cons_le s (ih hrest hnext hin (add_nonneg hnext.tokens_nonneg
        (mul_nonneg (sub_nonneg.mpr hin) hnext.rate_nonneg)))
      have hrefill : (bucket.refill event.1).tokens ≤
          bucket.tokens + (event.1 - bucket.last) * bucket.rate := min_le_right _ _
      calc (takenIn s t (event :: events) : 𝕜)
          ≤ (bucket.refill event.1).tokens + (t - event.1) * bucket.rate := hbound
        _ ≤ bucket.tokens + (event.1 - bucket.last) * bucket.rate +
              (t - event.1) * bucket.rate := add_le_add_left hrefill _
        _ = bucket.tokens + (t - bucket.last) * bucket.rate := by ring

theorem Fair.takenIn_le_capacity (h : bucket.Fair events) (hfilled : bucket.Filled)
    (hst : s ≤ t) :
    (takenIn s t events : 𝕜) ≤ bucket.capacity + (t - s) * bucket.rate := by
  have hnone : 0 ≤ bucket.capacity + (t - s) * bucket.rate :=
    add_nonneg (hfilled.tokens_nonneg.trans hfilled.tokens_le)
      (mul_nonneg (sub_nonneg.mpr hst) hfilled.rate_nonneg)
  induction events generalizing bucket with
  | nil => simpa [takenIn] using hnone
  | cons event events ih =>
    obtain ⟨hevent, htaken, hrest⟩ := h
    have hnext := hfilled.step hevent htaken
    by_cases hin : s ≤ event.1 ∧ event.1 ≤ t
    · calc (takenIn s t (event :: events) : 𝕜)
          ≤ (bucket.refill event.1).tokens + (t - event.1) * bucket.rate :=
            takenIn_cons_le s (hrest.takenIn_le hnext hin.2 s)
        _ ≤ bucket.capacity + (t - event.1) * bucket.rate :=
            add_le_add_left (min_le_left _ _) _
        _ ≤ bucket.capacity + (t - s) * bucket.rate := by
            apply add_le_add_right
            exact mul_le_mul_of_nonneg_right (sub_le_sub_left hin.1 t) hfilled.rate_nonneg
    · have hbound := ih hrest hnext hnone
      rw [takenIn_cons, if_neg fun h => hin h.2]
      exact hbound

end Ordered

end TokenBucket

end Agent33.Library
