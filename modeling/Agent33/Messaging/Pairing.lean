import Agent33.Library.Dict
import Agent33.Library.History

/-!
# Pairing codes

A code links the user of a platform to an account. The codes of all users are kept in one
map, in which a user's earlier code is left and a code that is drawn again takes the place of
another user's. Beside the manager stand the codes that count, one for each user of a
platform, and the failures of each user since the last success.
-/

namespace Agent33.Messaging

open Library List

/-- Times are counted in microseconds. -/
def minutes (n : ℤ) : ℤ := n * 60000000

def ttlMinutes : ℤ := 15

def maxFailedAttempts : ℕ := 5

def lockoutMinutes : ℤ := 15

structure PairingRequest where
  platform : Text
  userId : Text
  code : Text
  expiresAt : ℤ

structure PairingManager where
  codes : Dict Text PairingRequest := .empty
  failedAttempts : Dict Text (List ℤ) := .empty

namespace PairingManager

variable (m : PairingManager)

def generateCode (platform userId code : Text) (now : ℤ) : PairingManager :=
  { m with codes := m.codes.set code ⟨platform, userId, code, now + minutes ttlMinutes⟩ }

def isLockedOut (userId : Text) (now : ℤ) : Bool × PairingManager :=
  let attempts := m.failedAttempts.getD userId []
  if attempts = [] then (false, m)
  else
    let recent := attempts.filter fun a => now - minutes lockoutMinutes < a
    (decide (maxFailedAttempts ≤ recent.length),
      { m with failedAttempts := m.failedAttempts.set userId recent })

def recordFailure (userId : Text) (now : ℤ) : PairingManager :=
  { m with
    failedAttempts := m.failedAttempts.set userId (m.failedAttempts.getD userId [] ++ [now]) }

/-- The clock is read for the lock, for the code and for the failure. -/
def verifyCode (code userId : Text) (checked evaluated recorded : ℤ) : Bool × PairingManager :=
  match m.isLockedOut userId checked with
  | (true, m) => (false, m)
  | (false, m) =>
    match m.codes.get? code with
    | none => (false, m.recordFailure userId recorded)
    | some request =>
      if request.expiresAt < evaluated then
        (false, { m with codes := m.codes.erase code }.recordFailure userId recorded)
      else if request.userId ≠ userId then (false, m.recordFailure userId recorded)
      else
        (true, { codes := m.codes.erase code, failedAttempts := m.failedAttempts.erase userId })

def purgeExpired (now : ℤ) : PairingManager :=
  { m with
    codes := m.codes.filterMapValues fun _ request =>
      if request.expiresAt < now then none else some request }

end PairingManager

inductive PairingOp where
  | generateCode (platform userId code : Text) (now : ℤ)
  | verifyCode (code userId : Text) (checked evaluated recorded : ℤ)
  | purgeExpired (now : ℤ)

/-- The manager, the last codes of the users that were not used yet, the failures that were
evaluated for each user since the last success, and the clock. -/
structure Paired where
  manager : PairingManager := {}
  current : List PairingRequest := []
  failures : Text → List ℤ := fun _ => []
  clock : ℤ

namespace Paired

variable {t : Paired} {op : PairingOp} {userId code : Text}

/-- The failures of the last minutes before a time. -/
def recent (attempts : List ℤ) (now : ℤ) : List ℤ :=
  attempts.filter fun a => now - minutes lockoutMinutes < a

def Locked (t : Paired) (userId : Text) (now : ℤ) : Prop :=
  maxFailedAttempts ≤ (recent (t.failures userId) now).length

instance : Decidable (t.Locked userId now) := inferInstanceAs (Decidable (_ ≤ _))

def Accepts (t : Paired) (code userId : Text) (now : ℤ) : Prop :=
  ∃ i ∈ t.current, i.code = code ∧ i.userId = userId ∧ now ≤ i.expiresAt

instance : Decidable (t.Accepts code userId now) :=
  inferInstanceAs (Decidable (∃ i ∈ t.current, _))

def next (t : Paired) : PairingOp → Paired
  | .generateCode platform userId code now =>
    { t with
      manager := t.manager.generateCode platform userId code now
      current := (t.current.filter fun i => ¬ (i.platform = platform ∧ i.userId = userId)) ++
        [⟨platform, userId, code, now + minutes ttlMinutes⟩]
      clock := now }
  | .verifyCode code userId checked evaluated recorded =>
    let manager := (t.manager.verifyCode code userId checked evaluated recorded).2
    if t.Locked userId checked then { t with manager, clock := recorded }
    else if t.Accepts code userId evaluated then
      { manager, clock := recorded
        current := t.current.filter fun i => ¬ (i.code = code ∧ i.userId = userId)
        failures := fun u => if u = userId then [] else t.failures u }
    else
      { t with
        manager, clock := recorded
        failures := fun u => if u = userId then t.failures u ++ [recorded] else t.failures u }
  | .purgeExpired now => { t with manager := t.manager.purgeExpired now, clock := now }

/-- The clock never goes back. -/
def Timely (t : Paired) : PairingOp → Prop
  | .generateCode _ _ _ now => t.clock ≤ now
  | .verifyCode _ _ checked evaluated recorded =>
    t.clock ≤ checked ∧ checked ≤ evaluated ∧ evaluated ≤ recorded
  | .purgeExpired now => t.clock ≤ now

instance : Decidable (t.Timely op) :=
  match op with
  | .generateCode _ _ _ _ => inferInstanceAs (Decidable (_ ≤ _))
  | .verifyCode _ _ _ _ _ => inferInstanceAs (Decidable (_ ∧ _))
  | .purgeExpired _ => inferInstanceAs (Decidable (_ ≤ _))

/-- A user who asks for a code has no other one that has not expired, and the code that is
drawn is not such a code of another one. -/
def Fresh (t : Paired) : PairingOp → Prop
  | .generateCode platform userId code now => ∀ i ∈ t.current, now ≤ i.expiresAt →
    (i.code = code ↔ i.platform = platform ∧ i.userId = userId)
  | _ => True

instance : Decidable (t.Fresh op) :=
  match op with
  | .generateCode _ _ _ _ => inferInstanceAs (Decidable (∀ i ∈ t.current, _))
  | .verifyCode _ _ _ _ _ => .isTrue trivial
  | .purgeExpired _ => .isTrue trivial

/-- A code is accepted just from its user, once, until it expires, is replaced or the user is
locked out; and few failures are evaluated in any window. -/
structure Sound (t : Paired) (op : PairingOp) : Prop where
  accepted : ∀ code userId checked evaluated recorded,
    op = .verifyCode code userId checked evaluated recorded →
      ((t.manager.verifyCode code userId checked evaluated recorded).1 = true ↔
        ¬ t.Locked userId checked ∧ t.Accepts code userId evaluated)
  limited : ∀ userId now, (((t.next op).failures userId).filter fun a =>
    now - minutes lockoutMinutes < a ∧ a ≤ now).length ≤ maxFailedAttempts

/-- The manager has the current codes as long as they have not expired, and its failures are
the late ones. -/
structure Agrees (t : Paired) : Prop where
  held : ∀ i ∈ t.current, t.clock ≤ i.expiresAt → t.manager.codes.get? i.code = some i
  current : ∀ code i, t.manager.codes.get? code = some i → i.code = code ∧
    (t.clock ≤ i.expiresAt → i ∈ t.current)
  attempts : ∀ userId, ∃ cutoff ≤ t.clock - minutes lockoutMinutes,
    t.manager.failedAttempts.getD userId [] = (t.failures userId).filter fun a => cutoff < a
  past : ∀ userId, ∀ a ∈ t.failures userId, a ≤ t.clock
  limited : ∀ userId now, ((t.failures userId).filter fun a =>
    now - minutes lockoutMinutes < a ∧ a ≤ now).length ≤ maxFailedAttempts

namespace Agrees

/-- What the check of the lock finds and leaves. -/
theorem isLockedOut (h : t.Agrees) (userId : Text) (hnow : t.clock ≤ now) :
    ((t.manager.isLockedOut userId now).1 = true ↔ t.Locked userId now) ∧
    (t.manager.isLockedOut userId now).2.codes = t.manager.codes ∧
    (t.manager.isLockedOut userId now).2.failedAttempts.getD userId [] =
      recent (t.failures userId) now ∧
    ∀ other, other ≠ userId → (t.manager.isLockedOut userId now).2.failedAttempts.getD other [] =
      t.manager.failedAttempts.getD other [] := by
  obtain ⟨cutoff, hcutoff, hattempts⟩ := h.attempts userId
  have hrecent : (t.manager.failedAttempts.getD userId []).filter
      (fun a => now - minutes lockoutMinutes < a) = recent (t.failures userId) now := by
    rw [hattempts, filter_filter, recent]
    refine filter_congr fun a _ => ?_
    rw [← Bool.decide_and, decide_eq_decide]
    omega
  rw [PairingManager.isLockedOut]
  dsimp only
  split_ifs with hnone
  · rw [hnone, filter_nil] at hrecent
    refine ⟨?_, rfl, hnone.trans hrecent, fun _ _ => rfl⟩
    rw [Locked, ← hrecent]
    exact iff_of_false not_false (by decide)
  · refine ⟨?_, rfl, ?_, fun other hother => ?_⟩
    · rw [decide_eq_true_iff, hrecent, Locked]
    · rw [Dict.getD_set, if_pos rfl, hrecent]
    · rw [Dict.getD_set, if_neg hother]

/-- What a verification comes to. -/
inductive Verified (t : Paired) (code userId : Text) (checked evaluated recorded : ℤ) :
    Bool → PairingManager → Prop where
  | locked {m} : t.Locked userId checked → m.codes = t.manager.codes →
      m.failedAttempts.getD userId [] = recent (t.failures userId) checked →
      Verified t code userId checked evaluated recorded false m
  | accepted {m} : ¬ t.Locked userId checked → t.Accepts code userId evaluated →
      m.codes = t.manager.codes.erase code → m.failedAttempts.getD userId [] = [] →
      Verified t code userId checked evaluated recorded true m
  | failed {m} : ¬ t.Locked userId checked → ¬ t.Accepts code userId evaluated →
      (m.codes = t.manager.codes ∨ m.codes = t.manager.codes.erase code ∧
        ∃ i, t.manager.codes.get? code = some i ∧ i.expiresAt < evaluated) →
      m.failedAttempts.getD userId [] = recent (t.failures userId) checked ++ [recorded] →
      Verified t code userId checked evaluated recorded false m

section

variable (h : t.Agrees)
include h

theorem verified (recorded : ℤ)
    (hchecked : t.clock ≤ checked) (hevaluated : checked ≤ evaluated) :
    Verified t code userId checked evaluated recorded
      (t.manager.verifyCode code userId checked evaluated recorded).1
      (t.manager.verifyCode code userId checked evaluated recorded).2 ∧
    ∀ other, other ≠ userId →
      (t.manager.verifyCode code userId checked evaluated recorded).2.failedAttempts.getD other [] =
        t.manager.failedAttempts.getD other [] := by
  obtain ⟨hlocked, hcodes, hrecent, hothers⟩ := h.isLockedOut userId hchecked
  have hheld {i : PairingRequest} (hi : i ∈ t.current) (hlive : evaluated ≤ i.expiresAt) :=
    h.held i hi (by omega)
  rw [PairingManager.verifyCode]
  cases hm : t.manager.isLockedOut userId checked with
  | mk locked m =>
    rw [hm] at hlocked hcodes hrecent hothers
    dsimp only at hlocked hcodes hrecent hothers
    have hrecorded : (m.recordFailure userId recorded).failedAttempts.getD userId [] =
        recent (t.failures userId) checked ++ [recorded] := by
      rw [PairingManager.recordFailure, Dict.getD_set, if_pos rfl, hrecent]
    have hkept (other : Text) (hother : other ≠ userId) :
        (m.recordFailure userId recorded).failedAttempts.getD other [] =
          t.manager.failedAttempts.getD other [] := by
      rw [PairingManager.recordFailure, Dict.getD_set, if_neg hother, hothers other hother]
    cases locked with
    | true => exact ⟨.locked (hlocked.mp rfl) hcodes hrecent, hothers⟩
    | false =>
      have hfree : ¬ t.Locked userId checked := fun hl => Bool.false_ne_true (hlocked.mpr hl)
      dsimp only
      rw [hcodes]
      cases hget : t.manager.codes.get? code with
      | none =>
        refine ⟨.failed hfree ?_ (.inl hcodes) hrecorded, hkept⟩
        rintro ⟨i, hi, rfl, -, hlive⟩
        rw [hheld hi hlive] at hget
        cases hget
      | some request =>
        obtain ⟨rfl, hcurrent⟩ := h.current code request hget
        have hsame {i : PairingRequest} (hi : i ∈ t.current) (hcode : i.code = request.code)
            (hlive : evaluated ≤ i.expiresAt) : i = request :=
          (Option.some.inj ((hcode ▸ hheld hi hlive).symm.trans hget))
        dsimp only
        split_ifs with hexpired huser
        · refine ⟨.failed hfree ?_ (.inr ⟨rfl, request, hget, hexpired⟩) hrecorded, hkept⟩
          rintro ⟨i, hi, hcode, -, hlive⟩
          rw [hsame hi hcode hlive] at hlive
          omega
        · refine ⟨.failed hfree ?_ (.inl hcodes) hrecorded, hkept⟩
          rintro ⟨i, hi, hcode, hi', hlive⟩
          exact huser (hsame hi hcode hlive ▸ hi')
        · refine ⟨.accepted hfree ⟨request, hcurrent (by omega), rfl, not_not.mp huser, by omega⟩
            rfl ?_, fun other hother => ?_⟩
          · rw [Dict.getD_erase, if_pos rfl]
          · rw [Dict.getD_erase, if_neg hother, hothers other hother]

theorem accepted (recorded : ℤ)
    (hchecked : t.clock ≤ checked) (hevaluated : checked ≤ evaluated) :
    (t.manager.verifyCode code userId checked evaluated recorded).1 = true ↔
      ¬ t.Locked userId checked ∧ t.Accepts code userId evaluated := by
  have hverified : Verified t code userId checked evaluated recorded _ _ :=
    (h.verified recorded hchecked hevaluated).1
  revert hverified
  generalize (t.manager.verifyCode code userId checked evaluated recorded).1 = result
  intro hverified
  cases hverified with
  | locked hl => exact iff_of_false Bool.false_ne_true fun hboth => hboth.1 hl
  | accepted hfree haccepts => exact iff_of_true rfl ⟨hfree, haccepts⟩
  | failed _ hrejects => exact iff_of_false Bool.false_ne_true fun hboth => hrejects hboth.2

theorem next_generateCode (hnow : t.clock ≤ now)
    (hfresh : t.Fresh (.generateCode platform userId code now)) :
    (t.next (.generateCode platform userId code now)).Agrees := by
  simp only [Paired.next, PairingManager.generateCode]
  refine ⟨?_, ?_, fun u => ?_, fun u a ha => Int.le_trans (h.past u a ha) hnow, h.limited⟩
  · dsimp only
    intro i hi hlive
    rw [Dict.get?_set]
    rcases mem_append.mp hi with hi | hi
    · obtain ⟨hi, hother⟩ := List.mem_filter.mp hi
      rw [if_neg, h.held i hi (by omega)]
      exact fun hcode => of_decide_eq_true hother ((hfresh i hi hlive).mp hcode)
    · rw [mem_singleton.mp hi, if_pos rfl]
  · dsimp only
    intro c i hget
    rw [Dict.get?_set] at hget
    split_ifs at hget with hc
    · cases hget
      exact ⟨hc.symm, fun _ => mem_append_right _ (mem_singleton_self _)⟩
    · obtain ⟨rfl, hcurrent⟩ := h.current c i hget
      refine ⟨rfl, fun hlive => mem_append_left _ ?_⟩
      have hi := hcurrent (by omega)
      exact List.mem_filter.mpr
        ⟨hi, decide_eq_true fun hsame => hc ((hfresh i hi hlive).mpr hsame)⟩
  · obtain ⟨cutoff, hcutoff, hattempts⟩ := h.attempts u
    exact ⟨cutoff, by dsimp only; omega, hattempts⟩

theorem next_purgeExpired (hnow : t.clock ≤ now) : (t.next (.purgeExpired now)).Agrees := by
  simp only [Paired.next, PairingManager.purgeExpired]
  refine ⟨?_, ?_, fun u => ?_, fun u a ha => Int.le_trans (h.past u a ha) hnow, h.limited⟩
  · dsimp only
    intro i hi hlive
    rw [Dict.get?_filterMapValues, h.held i hi (by omega), Option.bind_some, if_neg (by omega)]
  · dsimp only
    intro c i hget
    rw [Dict.get?_filterMapValues] at hget
    obtain ⟨request, hrequest, hkept⟩ := Option.bind_eq_some_iff.mp hget
    split_ifs at hkept
    cases hkept
    obtain ⟨hcode, hcurrent⟩ := h.current c i hrequest
    exact ⟨hcode, fun hlive => hcurrent (by omega)⟩
  · obtain ⟨cutoff, hcutoff, hattempts⟩ := h.attempts u
    exact ⟨cutoff, by dsimp only; omega, hattempts⟩

theorem limited_append (hrecorded : checked ≤ recorded)
    (hfree : ¬ t.Locked userId checked) (now : ℤ) :
    ((t.failures userId ++ [recorded]).filter fun a =>
      now - minutes lockoutMinutes < a ∧ a ≤ now).length ≤ maxFailedAttempts := by
  rw [filter_append, length_append]
  by_cases hwindow : now - minutes lockoutMinutes < recorded ∧ recorded ≤ now
  · have hsub := (monotone_filter_right (t.failures userId) (fun a ha => by
      simp only [decide_eq_true_iff] at ha ⊢
      omega : ∀ a, decide (now - minutes lockoutMinutes < a ∧ a ≤ now) = true →
        decide (checked - minutes lockoutMinutes < a) = true)).length_le
    have hfew : (recent (t.failures userId) checked).length < maxFailedAttempts := not_le.mp hfree
    have hone := length_filter_le
      (fun a => decide (now - minutes lockoutMinutes < a ∧ a ≤ now)) [recorded]
    rw [recent] at hfew
    rw [length_singleton] at hone
    omega
  · rw [filter_singleton, decide_eq_false hwindow]
    exact h.limited userId now

theorem next_verifyCode (hchecked : t.clock ≤ checked) (hevaluated : checked ≤ evaluated)
    (hrecorded : evaluated ≤ recorded) :
    (t.next (.verifyCode code userId checked evaluated recorded)).Agrees := by
  obtain ⟨hverified, hothers⟩ :
      Verified t code userId checked evaluated recorded _ _ ∧ _ :=
    h.verified recorded hchecked hevaluated
  have hattempts {m : PairingManager} {failures : Text → List ℤ}
      (hothers : ∀ other, other ≠ userId →
        m.failedAttempts.getD other [] = t.manager.failedAttempts.getD other [])
      (hkept : ∀ other, other ≠ userId → failures other = t.failures other)
      (huser : m.failedAttempts.getD userId [] =
        (failures userId).filter fun a => checked - minutes lockoutMinutes < a) (u : Text) :
      ∃ cutoff ≤ recorded - minutes lockoutMinutes,
        m.failedAttempts.getD u [] = (failures u).filter fun a => cutoff < a := by
    by_cases hu : u = userId
    · subst hu
      exact ⟨_, by omega, huser⟩
    · obtain ⟨cutoff, hcutoff, hold⟩ := h.attempts u
      exact ⟨cutoff, by omega, by rw [hothers u hu, hkept u hu, hold]⟩
  have hpast (u : Text) (a : ℤ) (ha : a ∈ t.failures u) : a ≤ recorded := by
    have hold := h.past u a ha
    omega
  rw [Paired.next]
  revert hverified hothers
  generalize (t.manager.verifyCode code userId checked evaluated recorded).2 = m
  generalize (t.manager.verifyCode code userId checked evaluated recorded).1 = result
  intro hverified hothers
  cases hverified with
  | locked hlocked hcodes hrecent =>
    rw [if_pos hlocked]
    refine ⟨fun i hi hlive => ?_, fun c i hget => ?_, hattempts hothers (fun _ _ => rfl) hrecent,
      hpast, h.limited⟩
    · dsimp only at hlive ⊢
      rw [hcodes, h.held i hi (by omega)]
    · dsimp only at hget ⊢
      rw [hcodes] at hget
      exact ⟨(h.current c i hget).1, fun hlive => (h.current c i hget).2 (by omega)⟩
  | accepted hfree haccepts hcodes hnone =>
    obtain ⟨j, hj, rfl, rfl, hjlive⟩ := id haccepts
    rw [if_neg hfree, if_pos haccepts]
    refine ⟨fun i hi hlive => ?_, fun c i hget => ?_,
      hattempts hothers (fun _ hother => if_neg hother)
        (by rw [hnone]; dsimp only; rw [if_pos rfl]; rfl), ?_, ?_⟩
    · dsimp only at hi hlive ⊢
      obtain ⟨hi, hother⟩ := List.mem_filter.mp hi
      have hheld := h.held i hi (by omega)
      rw [hcodes, Dict.get?_erase, if_neg, hheld]
      intro hcode
      rw [hcode, h.held j hj (by omega)] at hheld
      cases hheld
      exact of_decide_eq_true hother ⟨rfl, rfl⟩
    · dsimp only at hget ⊢
      rw [hcodes, Dict.get?_erase] at hget
      split_ifs at hget with hc
      obtain ⟨rfl, hcurrent⟩ := h.current c i hget
      exact ⟨rfl, fun hlive => List.mem_filter.mpr
        ⟨hcurrent (by omega), decide_eq_true fun hsame => hc hsame.1⟩⟩
    · intro u a ha
      dsimp only at ha
      split_ifs at ha
      · cases ha
      · exact hpast u a ha
    · intro u now
      dsimp only
      split_ifs
      · exact Nat.zero_le _
      · exact h.limited u now
  | failed hfree hrejects hcodes hrecent =>
    rw [if_neg hfree, if_neg hrejects]
    refine ⟨fun i hi hlive => ?_, fun c i hget => ?_,
      hattempts hothers (fun _ hother => if_neg hother) ?_, ?_, ?_⟩
    · dsimp only at hi hlive ⊢
      have hheld := h.held i hi (by omega)
      rcases hcodes with hcodes | ⟨hcodes, request, hget, hexpired⟩
      · rw [hcodes, hheld]
      · rw [hcodes, Dict.get?_erase, if_neg, hheld]
        intro hcode
        rw [hcode, hget] at hheld
        cases hheld
        omega
    · dsimp only at hget ⊢
      have hold : t.manager.codes.get? c = some i := by
        rcases hcodes with hcodes | ⟨hcodes, -⟩
        · rwa [hcodes] at hget
        · rw [hcodes, Dict.get?_erase] at hget
          split_ifs at hget
          exact hget
      exact ⟨(h.current c i hold).1, fun hlive => (h.current c i hold).2 (by omega)⟩
    · have hlate : checked - minutes lockoutMinutes < recorded := by
        simp only [minutes, lockoutMinutes]
        omega
      rw [hrecent]
      dsimp only
      rw [if_pos rfl, filter_append, filter_singleton, decide_eq_true hlate]
      rfl
    · intro u a ha
      dsimp only at ha
      split_ifs at ha
      · rcases mem_append.mp ha with ha | ha
        · exact hpast u a ha
        · exact Int.le_of_eq (mem_singleton.mp ha)
      · exact hpast u a ha
    · intro u now
      dsimp only
      split_ifs with hu
      · subst hu
        exact h.limited_append (by omega) hfree now
      · exact h.limited u now

theorem next (htimely : t.Timely op) (hfresh : t.Fresh op) : (t.next op).Agrees := by
  cases op with
  | generateCode platform userId code now => exact h.next_generateCode htimely hfresh
  | verifyCode code userId checked evaluated recorded =>
    exact h.next_verifyCode htimely.1 htimely.2.1 htimely.2.2
  | purgeExpired now => exact h.next_purgeExpired htimely

theorem sound (htimely : t.Timely op) (hfresh : t.Fresh op) : t.Sound op := by
  refine ⟨?_, (h.next htimely hfresh).limited⟩
  rintro code userId checked evaluated recorded rfl
  exact h.accepted recorded htimely.1 htimely.2.1

end

theorem start (clock : ℤ) : Agrees { clock := clock } := by
  refine ⟨nofun, nofun, fun _ => ⟨clock - minutes lockoutMinutes, Int.le_refl _, rfl⟩,
    fun _ => nofun, fun _ _ => Nat.zero_le _⟩

end Agrees

/-- Where no user asks for a code while another one is active and no active code is drawn again,
verification is sound in every run. -/
theorem run_sound (clock : ℤ) {ops : List PairingOp}
    (htimely : History.Along next Timely { clock } ops)
    (hfresh : History.Along next Fresh { clock } ops) : History.Along next Sound { clock } ops :=
  History.Along.imp (I := Agrees) (fun _ _ h hfresh htimely => h.next htimely hfresh)
    (fun _ _ h hfresh htimely => h.sound htimely hfresh) (.start clock) hfresh htimely

def telegram : Text := "telegram".toList

def pairing : List PairingOp :=
  [.generateCode telegram "u1".toList "000001".toList 1,
    .verifyCode "000001".toList "u1".toList 2 3 4]

theorem run_sound_pairing : History.Along next Sound { clock := 0 } pairing :=
  run_sound 0 (by decide +kernel) (by decide +kernel)

def asksTwice : List PairingOp :=
  [.generateCode telegram "u1".toList "000001".toList 1,
    .generateCode telegram "u1".toList "000002".toList 2,
    .verifyCode "000001".toList "u1".toList 3 3 3]

/-- The first of two codes of a user is accepted, although the second one replaced it. -/
theorem asksTwice_not_sound : History.Along next Timely { clock := 0 } asksTwice ∧
    ¬ History.Along next Sound { clock := 0 } asksTwice := by
  refine ⟨by decide +kernel, fun h => ?_⟩
  have haccepted := h.2.2.1.accepted "000001".toList "u1".toList 3 3 3 rfl
  exact absurd haccepted (by decide +kernel)

end Paired

end Agent33.Messaging
