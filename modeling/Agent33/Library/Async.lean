import Mathlib.Data.List.Forall2
import Mathlib.Order.Basic

/-!
# Interleaved computations

A computation acts on a shared state and may suspend between its actions. Several
of them are gathered by a schedule that says, at every suspension, who goes on.
Two rules carry a property through any interleaving: a computation that keeps an
invariant and a postcondition of its result, and two computations that go on
alike from states that are related, more and more closely.
-/

namespace Agent33.Library

universe u

inductive Async (σ α : Type u) : Type u
  | done (a : α)
  | act (f : σ → σ) (k : σ → Async σ α)
  | suspend (k : Async σ α)

abbrev Schedule := ℕ → Bool

def Schedule.tail (schedule : Schedule) : Schedule := fun n => schedule (n + 1)

namespace Async

variable {σ τ α β γ : Type u}

def bind : Async σ α → (α → Async σ β) → Async σ β
  | done a, g => g a
  | act f k, g => act f fun s => bind (k s) g
  | suspend k, g => suspend (bind k g)

instance : Monad (Async σ) where
  pure := done
  bind := bind

def read : Async σ σ := act id done

def modify (f : σ → σ) : Async σ PUnit := act f fun _ => done ⟨⟩

def yield : Async σ PUnit := suspend (done ⟨⟩)

def run : Async σ α → σ → α × σ
  | done a, s => (a, s)
  | act f k, s => run (k s) (f s)
  | suspend k, s => run k s

def turnRight (left : Async σ β → Schedule → Async σ γ) (finish : β → Async σ γ) :
    Async σ β → Schedule → Async σ γ
  | done b, _ => finish b
  | act f k, schedule => act f fun s => turnRight left finish (k s) schedule
  | suspend k, schedule =>
    suspend (if schedule 0 then left k schedule.tail else turnRight left finish k schedule.tail)

def turnLeft : Async σ α → Async σ β → Schedule → Async σ (α × β)
  | done a, y, _ => y.bind fun b => done (a, b)
  | act f k, y, schedule => act f fun s => turnLeft (k s) y schedule
  | suspend k, y, schedule =>
    suspend (if schedule 0 then turnLeft k y schedule.tail
      else turnRight (turnLeft k) (fun b => k.bind fun a => done (a, b)) y schedule.tail)

def par (schedule : Schedule) (x : Async σ α) (y : Async σ β) : Async σ (α × β) :=
  if schedule 0 then turnLeft x y schedule.tail
  else turnRight (turnLeft x) (fun b => x.bind fun a => done (a, b)) y schedule.tail

def gather : (ℕ → Schedule) → List (Async σ α) → Async σ (List α)
  | _, [] => done []
  | schedules, x :: xs =>
    (par (schedules 0) x (gather (fun n => schedules (n + 1)) xs)).bind fun p => done (p.1 :: p.2)

/-- Nothing, when the computation suspends more than so many times. -/
def within : Option ℕ → Async σ α → Async σ (Option α)
  | _, done a => done (some a)
  | limit, act f k => act f fun s => within limit (k s)
  | none, suspend k => suspend (within none k)
  | some 0, suspend _ => suspend (done none)
  | some (n + 1), suspend k => suspend (within (some n) k)

def lift : Async σ α → Async (σ × τ) α
  | done a => done a
  | act f k => act (fun s => (f s.1, s.2)) fun s => lift (k s.1)
  | suspend k => suspend (lift k)

def withLocal : Async (σ × τ) α → τ → Async σ (α × τ)
  | done a, t => done (a, t)
  | act f k, t => act (fun s => (f (s, t)).1) fun s => withLocal (k (s, t)) (f (s, t)).2
  | suspend k, t => suspend (withLocal k t)

theorem run_bind' (x : Async σ α) (g : α → Async σ β) (s : σ) :
    (x.bind g).run s = (g (x.run s).1).run (x.run s).2 := by
  induction x generalizing s with
  | done a => rfl
  | act f k ih => exact ih s (f s)
  | suspend k ih => exact ih s

@[simp] theorem run_pure (a : α) (s : σ) : (pure a : Async σ α).run s = (a, s) := rfl

@[simp] theorem run_bind (x : Async σ α) (g : α → Async σ β) (s : σ) :
    (x >>= g).run s = (g (x.run s).1).run (x.run s).2 :=
  run_bind' x g s

@[simp] theorem run_read (s : σ) : (read : Async σ σ).run s = (s, s) := rfl

@[simp] theorem run_modify (f : σ → σ) (s : σ) : (modify f).run s = (⟨⟩, f s) := rfl

@[simp] theorem run_yield (s : σ) : (yield : Async σ PUnit).run s = (⟨⟩, s) := rfl

theorem run_withLocal (x : Async (σ × τ) α) (s : σ) (t : τ) :
    (x.withLocal t).run s = (((x.run (s, t)).1, (x.run (s, t)).2.2), (x.run (s, t)).2.1) := by
  induction x generalizing s t with
  | done a => rfl
  | act f k ih => exact ih (s, t) (f (s, t)).1 (f (s, t)).2
  | suspend k ih => exact ih s t

theorem run_within_none (x : Async σ α) (s : σ) :
    (within none x).run s = (some (x.run s).1, (x.run s).2) := by
  induction x generalizing s with
  | done a =>
    rw [within]
    rfl
  | act f k ih =>
    rw [within]
    exact ih s (f s)
  | suspend k ih => exact ih s

/-- Every action keeps the invariant, and every result meets the postcondition. -/
def Ensures (I : σ → Prop) (Q : α → Prop) : Async σ α → Prop
  | done a => Q a
  | act f k => ∀ s, I s → I (f s) ∧ Ensures I Q (k s)
  | suspend k => Ensures I Q k

variable {R : β → Prop}

theorem Ensures.imp (hx : Ensures I Q x) (h : ∀ a, Q a → Q' a) : Ensures I Q' x := by
  induction x with
  | done a => exact h a hx
  | act f k ih => exact fun s hs => ⟨(hx s hs).1, ih s (hx s hs).2⟩
  | suspend k ih => exact ih hx

theorem Ensures.congr {J : σ → Prop} (hx : Ensures I Q x) (h : ∀ s, I s ↔ J s) : Ensures J Q x := by
  induction x with
  | done a => exact hx
  | act f k ih =>
    intro s hs
    obtain ⟨hf, hk⟩ := hx s ((h s).mpr hs)
    exact ⟨(h _).mp hf, ih s hk⟩
  | suspend k ih => exact ih hx

theorem ensures_pure (h : Q a) : Ensures I Q (pure a : Async σ α) := h

theorem Ensures.bind' (hx : Ensures I Q x) (hg : ∀ a, Q a → Ensures I R (g a)) :
    Ensures I R (x.bind g) := by
  induction x with
  | done a => exact hg a hx
  | act f k ih => exact fun s hs => ⟨(hx s hs).1, ih s (hx s hs).2⟩
  | suspend k ih => exact ih hx

theorem Ensures.bind (hx : Ensures I Q x) (hg : ∀ a, Q a → Ensures I R (g a)) :
    Ensures I R (x >>= g) :=
  Ensures.bind' hx hg

theorem ensures_read {Q : σ → Prop} (h : ∀ s, I s → Q s) : Ensures I Q (read : Async σ σ) :=
  fun s hs => ⟨hs, h s hs⟩

theorem ensures_modify {Q : PUnit → Prop} (h : ∀ s, I s → I (f s)) (hQ : Q ⟨⟩) :
    Ensures I Q (modify f) :=
  fun s hs => ⟨h s hs, hQ⟩

theorem ensures_yield {Q : PUnit → Prop} (h : Q ⟨⟩) : Ensures I Q (yield : Async σ PUnit) := h

theorem Ensures.run (hx : Ensures I Q x) (hs : I s) : Q (x.run s).1 ∧ I (x.run s).2 := by
  induction x generalizing s with
  | done a => exact ⟨hx, hs⟩
  | act f k ih => exact ih s (hx s hs).2 (hx s hs).1
  | suspend k ih => exact ih hx hs

theorem Ensures.turnRight {S : γ → Prop} (hy : Ensures I R y)
    (hleft : ∀ y schedule, Ensures I R y → Ensures I S (left y schedule))
    (hfinish : ∀ b, R b → Ensures I S (finish b)) (schedule : Schedule) :
    Ensures I S (turnRight left finish y schedule) := by
  induction y generalizing schedule with
  | done b => exact hfinish b hy
  | act f k ih => exact fun s hs => ⟨(hy s hs).1, ih s (hy s hs).2 schedule⟩
  | suspend k ih =>
    rw [Async.turnRight]
    split_ifs
    · exact hleft k _ hy
    · exact ih hy _

theorem ensures_finish (hx : Ensures I Q x) (hb : R b) :
    Ensures I (fun p : α × β => Q p.1 ∧ R p.2) (x.bind fun a => done (a, b)) :=
  Ensures.bind' hx fun _ ha => ⟨ha, hb⟩

theorem Ensures.turnLeft (hx : Ensures I Q x) (hy : Ensures I R y) (schedule : Schedule) :
    Ensures I (fun p : α × β => Q p.1 ∧ R p.2) (turnLeft x y schedule) := by
  induction x generalizing y schedule with
  | done a => exact Ensures.bind' hy fun _ hb => ⟨hx, hb⟩
  | act f k ih => exact fun s hs => ⟨(hx s hs).1, ih s (hx s hs).2 hy schedule⟩
  | suspend k ih =>
    have hk : Ensures I Q k := hx
    rw [Async.turnLeft]
    split_ifs
    · exact ih hk hy _
    · exact Ensures.turnRight hy (fun y schedule hy => ih hk hy schedule)
        (fun _ hb => ensures_finish hk hb) _

theorem Ensures.par (hx : Ensures I Q x) (hy : Ensures I R y) (schedule : Schedule) :
    Ensures I (fun p : α × β => Q p.1 ∧ R p.2) (par schedule x y) := by
  rw [Async.par]
  split_ifs
  · exact hx.turnLeft hy _
  · exact Ensures.turnRight hy (fun y schedule hy => hx.turnLeft hy schedule)
      (fun _ hb => ensures_finish hx hb) _

theorem ensures_gather {ι : Type*} {P : ι → α → Prop} {f : ι → Async σ α} {is : List ι}
    (h : ∀ i ∈ is, Ensures I (P i) (f i)) (schedules : ℕ → Schedule) :
    Ensures I (List.Forall₂ P is) (gather schedules (is.map f)) := by
  induction is generalizing schedules with
  | nil => exact List.Forall₂.nil
  | cons i is ih =>
    rw [List.forall_mem_cons] at h
    exact Ensures.bind' (h.1.par (ih h.2 _) _) fun _ hp => List.Forall₂.cons hp.1 hp.2

theorem Ensures.within (hx : Ensures I Q x) (limit : Option ℕ) :
    Ensures I (fun o => ∀ a ∈ o, Q a) (within limit x) := by
  induction x generalizing limit with
  | done a =>
    rw [Async.within]
    rintro _ ⟨⟩
    exact hx
  | act f k ih =>
    rw [Async.within]
    exact fun s hs => ⟨(hx s hs).1, ih s (hx s hs).2 limit⟩
  | suspend k ih =>
    cases limit with
    | none => exact ih hx none
    | some n =>
      cases n with
      | zero => exact nofun
      | succ n => exact ih hx (some n)

theorem Ensures.lift {J : σ × τ → Prop} (hx : Ensures I Q x) (hI : ∀ s, J s → I s.1)
    (hJ : ∀ s s', J s → I s' → J (s', s.2)) : Ensures J Q (lift x : Async (σ × τ) α) := by
  induction x with
  | done a => exact hx
  | act f k ih =>
    intro s hs
    have h := hx s.1 (hI s hs)
    exact ⟨hJ s _ hs h.1, ih s.1 h.2⟩
  | suspend k ih => exact ih hx

theorem Ensures.withLocal {L : τ → Prop} {x : Async (σ × τ) α}
    (hx : Ensures (fun p => I p.1 ∧ L p.2) Q x) {t : τ} (ht : L t) :
    Ensures I (fun p => Q p.1 ∧ L p.2) (withLocal x t) := by
  induction x generalizing t with
  | done a => exact ⟨hx, ht⟩
  | act f k ih =>
    intro s hs
    have h := hx (s, t) ⟨hs, ht⟩
    exact ⟨h.1.1, ih (s, t) h.2 h.1.2⟩
  | suspend k ih => exact ih hx ht

section Alike

variable {ι : Type*} [Preorder ι]

/-- From states that are related at a stage, the two take actions to states that are related
at this stage or a later one, and go on alike from there. -/
inductive Alike (R : ι → σ → σ → Prop) : ι → Async σ α → Async σ α → Prop
  | done (i : ι) (a : α) : Alike R i (done a) (done a)
  | act {i : ι} {f f' : σ → σ} {k k' : σ → Async σ α} (next : ι → σ → σ → ι)
      (hnext : ∀ j s s', i ≤ j → R j s s' → j ≤ next j s s')
      (hf : ∀ j s s', i ≤ j → R j s s' → R (next j s s') (f s) (f' s'))
      (hk : ∀ j s s', i ≤ j → R j s s' → Alike R (next j s s') (k s) (k' s')) :
      Alike R i (act f k) (act f' k')
  | suspend {i : ι} {k k' : Async σ α} (hk : Alike R i k k') : Alike R i (suspend k) (suspend k')

variable {R : ι → σ → σ → Prop}

theorem Alike.mono (h : Alike R i x x') (hij : i ≤ j) : Alike R j x x' := by
  induction h with
  | done i a => exact Alike.done j a
  | act next hnext hf hk _ =>
    exact Alike.act next (fun l s s' hl => hnext l s s' (hij.trans hl))
      (fun l s s' hl => hf l s s' (hij.trans hl)) fun l s s' hl => hk l s s' (hij.trans hl)
  | suspend _ ih => exact Alike.suspend (ih hij)

theorem Alike.run (h : Alike R i x x') (hij : i ≤ j)
    (hs : R j s s') :
    (x.run s).1 = (x'.run s').1 ∧ ∃ l, j ≤ l ∧ R l (x.run s).2 (x'.run s').2 := by
  induction h generalizing j s s' with
  | done i a => exact ⟨rfl, j, le_rfl, hs⟩
  | act next hnext hf _ ih =>
    obtain ⟨hresult, l, hl, hend⟩ := ih j s s' hij hs le_rfl (hf j s s' hij hs)
    exact ⟨hresult, l, (hnext j s s' hij hs).trans hl, hend⟩
  | suspend _ ih => exact ih hij hs

theorem alike_pure (a : α) : Alike R i (pure a) (pure a) := Alike.done i a

theorem Alike.bind' (hx : Alike R i x x')
    (hg : ∀ j a, i ≤ j → Alike R j (g a) (g' a)) : Alike R i (x.bind g) (x'.bind g') := by
  induction hx with
  | done i a => exact hg i a le_rfl
  | act next hnext hf _ ih =>
    refine Alike.act next hnext hf fun j s s' hj hs => ?_
    exact ih j s s' hj hs fun l a hl => hg l a ((hj.trans (hnext j s s' hj hs)).trans hl)
  | suspend _ ih => exact Alike.suspend (ih hg)

theorem Alike.bind (hx : Alike R i x x')
    (hg : ∀ j a, i ≤ j → Alike R j (g a) (g' a)) : Alike R i (x >>= g) (x' >>= g') :=
  Alike.bind' hx hg

theorem alike_read {g g' : σ → Async σ β}
    (hg : ∀ j s s', i ≤ j → R j s s' → Alike R j (g s) (g' s')) :
    Alike R i (read >>= g) (read >>= g') :=
  Alike.act (fun j _ _ => j) (fun _ _ _ _ _ => le_rfl) (fun _ _ _ _ h => h) hg

theorem alike_modify (h : ∀ j s s', R j s s' → R j (f s) (f' s')) :
    Alike R i (modify f) (modify f') :=
  Alike.act (fun j _ _ => j) (fun _ _ _ _ _ => le_rfl) (fun j s s' _ hs => h j s s' hs)
    fun j _ _ _ _ => Alike.done j _

theorem alike_advance {f f' : σ → σ} {g g' : PUnit → Async σ β} (next : ι → ι)
    (hnext : ∀ j, j ≤ next j) (h : ∀ j s s', R j s s' → R (next j) (f s) (f' s'))
    (hg : ∀ j, i ≤ j → Alike R (next j) (g ⟨⟩) (g' ⟨⟩)) :
    Alike R i (modify f >>= g) (modify f' >>= g') :=
  Alike.act (fun j _ _ => next j) (fun j _ _ _ _ => hnext j) (fun j s s' _ hs => h j s s' hs)
    fun j _ _ hj _ => hg j hj

theorem alike_yield : Alike R i yield yield := Alike.suspend (Alike.done i _)

theorem Alike.turnRight (hy : Alike R i y y')
    (hleft : ∀ {j y y'} schedule, i ≤ j → Alike R j y y' →
      Alike R j (left y schedule) (left' y' schedule))
    (hfinish : ∀ {j} b, i ≤ j → Alike R j (finish b) (finish' b)) (schedule : Schedule) :
    Alike R i (turnRight left finish y schedule) (turnRight left' finish' y' schedule) := by
  induction hy generalizing schedule with
  | done i b => exact hfinish b le_rfl
  | act next hnext hf _ ih =>
    refine Alike.act next hnext hf fun j s s' hj hs => ?_
    have hij := hj.trans (hnext j s s' hj hs)
    exact ih j s s' hj hs (fun schedule hl => hleft schedule (hij.trans hl))
      (fun b hl => hfinish b (hij.trans hl)) schedule
  | suspend hk ih =>
    rw [Async.turnRight, Async.turnRight]
    refine Alike.suspend ?_
    split_ifs
    · exact hleft _ le_rfl hk
    · exact ih hleft hfinish _

theorem Alike.turnLeft (hx : Alike R i x x') (hij : i ≤ j)
    (hy : Alike R j y y') (schedule : Schedule) :
    Alike R j (turnLeft x y schedule) (turnLeft x' y' schedule) := by
  induction hx generalizing j y y' schedule with
  | done i a => exact hy.bind' fun l _ _ => Alike.done l _
  | act next hnext hf _ ih =>
    refine Alike.act next (fun l s s' hl => hnext l s s' (hij.trans hl))
      (fun l s s' hl => hf l s s' (hij.trans hl)) fun l s s' hl hs => ?_
    exact ih l s s' (hij.trans hl) hs le_rfl
      (hy.mono (hl.trans (hnext l s s' (hij.trans hl) hs))) schedule
  | suspend hk ih =>
    rw [Async.turnLeft, Async.turnLeft]
    refine Alike.suspend ?_
    split_ifs
    · exact ih hij hy _
    · exact hy.turnRight (fun schedule hl hy => ih (hij.trans hl) hy schedule)
        (fun _ hl => (hk.mono (hij.trans hl)).bind' fun m _ _ => Alike.done m _) _

theorem Alike.par (hx : Alike R i x x')
    (hy : Alike R i y y') (schedule : Schedule) :
    Alike R i (par schedule x y) (par schedule x' y') := by
  rw [Async.par, Async.par]
  split_ifs
  · exact hx.turnLeft le_rfl hy _
  · exact hy.turnRight (fun schedule hj hy => hx.turnLeft hj hy schedule)
      (fun _ hj => (hx.mono hj).bind' fun l _ _ => Alike.done l _) _

theorem alike_gather {κ : Type*} {f f' : κ → Async σ α} (is : List κ)
    (h : ∀ k ∈ is, Alike R i (f k) (f' k)) (schedules : ℕ → Schedule) :
    Alike R i (gather schedules (is.map f)) (gather schedules (is.map f')) := by
  induction is generalizing schedules with
  | nil => exact Alike.done i _
  | cons k is ih =>
    rw [List.forall_mem_cons] at h
    exact (h.1.par (ih h.2 _) _).bind' fun j _ _ => Alike.done j _

theorem Alike.within (hx : Alike R i x x') (limit : Option ℕ) :
    Alike R i (within limit x) (within limit x') := by
  induction hx generalizing limit with
  | done i a =>
    rw [Async.within]
    exact Alike.done i _
  | act next hnext hf _ ih =>
    rw [Async.within, Async.within]
    exact Alike.act next hnext hf fun j s s' hj hs => ih j s s' hj hs limit
  | @suspend i k k' _ ih =>
    cases limit with
    | none => exact Alike.suspend (ih none)
    | some n =>
      cases n with
      | zero => exact Alike.suspend (Alike.done i _)
      | succ n => exact Alike.suspend (ih (some n))

theorem alike_lift {R : ι → σ × τ → σ × τ → Prop} (x : Async σ α)
    (h : ∀ j s s', R j s s' → s.1 = s'.1)
    (hset : ∀ j s s' t, R j s s' → R j (t, s.2) (t, s'.2)) : Alike R i (lift x) (lift x) := by
  induction x with
  | done a => exact Alike.done i a
  | act f k ih =>
    refine Alike.act (fun j _ _ => j) (fun _ _ _ _ _ => le_rfl) (fun j s s' _ hs => ?_)
      fun j s s' hj hs => ?_
    · rw [h j s s' hs]
      exact hset j s s' _ hs
    · rw [h j s s' hs]
      exact (ih _).mono hj
  | suspend k ih => exact Alike.suspend ih

end Alike

end Async

end Agent33.Library
