import Mathlib.Logic.Relation
import Mathlib.Data.List.Basic

/-!
# Programs over a shared state

A program reads and writes a state of type `σ`, and either returns a value, fails with an error of
type `ε` (keeping the writes made so far), or stops altogether. The file contains:

* the outcomes of a program and the monad of programs,
* `Outcome.Sat`, the postcondition of an outcome, and its rules for every program former,
* `Keeps`, programs that keep an invariant and move the state along a preorder,
* recursive procedures with a fuel bound, and the induction rule for them,
* runs of a transition relation, and the invariant rule for them.
-/

/-- The reasons for which a program stops without a final state. -/
inductive Halt where
  | panic
  | outOfFuel
  | refused
  deriving DecidableEq, Repr

/-- The outcome of running a program. -/
inductive Outcome (σ ε α : Type) where
  | ok (value : α) (state : σ)
  | err (error : ε) (state : σ)
  | halt (reason : Halt)

/-- A program over the state `σ` that returns an `α` or fails with an `ε`. -/
def Prog (σ ε α : Type) :=
  σ → Outcome σ ε α

variable {σ ε α β γ : Type}

namespace Outcome

variable {o : Outcome σ ε α} {H : Halt → Prop}

/-- The final state of an outcome, if there is one. -/
def state? : Outcome σ ε α → Option σ
  | ok _ s => some s
  | err _ s => some s
  | halt _ => none

/-- The postconditions of an outcome: one for a returned value, one for an error, one for a halt. -/
def Sat (o : Outcome σ ε α) (Q : α → σ → Prop) (E : ε → σ → Prop) (H : Halt → Prop) : Prop :=
  match o with
  | ok a s => Q a s
  | err e s => E e s
  | halt h => H h

/-- Postconditions may be weakened. -/
theorem Sat.mono {Q Q' : α → σ → Prop} {E E' : ε → σ → Prop} {H' : Halt → Prop} (h : o.Sat Q E H)
    (hQ : ∀ a s, Q a s → Q' a s) (hE : ∀ e s, E e s → E' e s) (hH : ∀ r, H r → H' r) :
  o.Sat Q' E' H'
  := by
  cases o with
  | ok a s => apply hQ a s h
  | err e s => apply hE e s h
  | halt r => apply hH r h

/-- The postcondition of a returned value may be weakened. -/
theorem Sat.imp {Q Q' : α → σ → Prop} {E : ε → σ → Prop} (h : o.Sat Q E H)
    (hQ : ∀ a s, Q a s → Q' a s) :
  o.Sat Q' E H
  := h.mono hQ (fun _ _ => id) fun _ => id

/-- A postcondition on the state alone may be weakened. -/
theorem Sat.imp_state {P P' : σ → Prop} {H' : Halt → Prop} (h : o.Sat (fun _ => P) (fun _ => P) H)
    (hP : ∀ s, P s → P' s) (hH : ∀ r, H r → H' r) :
  o.Sat (fun _ => P') (fun _ => P') H'
  := h.mono (fun _ => hP) (fun _ => hP) hH

/-- A postcondition on the state alone holds of the final state. -/
theorem Sat.state {P : σ → Prop} {s : σ} (h : o.Sat (fun _ => P) (fun _ => P) H)
    (hs : o.state? = some s) :
  P s
  := by
  cases o with
  | ok a t =>
    cases hs
    apply h
  | err e t =>
    cases hs
    apply h
  | halt r => cases hs

end Outcome

namespace Prog

/-- Return a value and leave the state alone. -/
def ret (a : α) : Prog σ ε α := fun s => .ok a s

/-- Run a program and pass its value to the next one. -/
def andThen (m : Prog σ ε α) (f : α → Prog σ ε β) : Prog σ ε β :=
  fun s =>
    match m s with
    | .ok a s' => f a s'
    | .err e s' => .err e s'
    | .halt h => .halt h

instance : Monad (Prog σ ε) where
  pure := ret
  bind := andThen

/-- Read the state. -/
def get : Prog σ ε σ := fun s => .ok s s

/-- Apply a function to the state. -/
def modify (f : σ → σ) : Prog σ ε Unit := fun s => .ok () (f s)

/-- Fail with an error. -/
def throw (e : ε) : Prog σ ε α := fun s => .err e s

/-- Stop the program. -/
def stop (h : Halt) : Prog σ ε α := fun _ => .halt h

/-- Run a program and return its result or its error as a value. -/
def attempt (m : Prog σ ε α) : Prog σ ε (Except ε α) :=
  fun s =>
    match m s with
    | .ok a s' => .ok (.ok a) s'
    | .err e s' => .ok (.error e) s'
    | .halt h => .halt h

/-- Run a program that cannot fail where failing is allowed. -/
def lift (m : Prog σ Empty α) : Prog σ ε α :=
  fun s =>
    match m s with
    | .ok a s' => .ok a s'
    | .err e _ => e.elim
    | .halt h => .halt h

/-- Run a program if a condition holds. -/
def when (c : Prop) [Decidable c] (m : Prog σ ε Unit) : Prog σ ε Unit :=
  if c then m else ret ()

/-- Run a program for every element of a list, in order. -/
def forEach (xs : List β) (f : β → Prog σ ε Unit) : Prog σ ε Unit :=
  match xs with
  | [] => ret ()
  | x :: xs => do
    f x
    forEach xs f

/-! ## Postconditions of the program formers -/

section Rules

variable {Q : α → σ → Prop} {E : ε → σ → Prop} {H : Halt → Prop} {s : σ}

/-- The postcondition of the first program is that the second one meets its own. -/
@[simp]
theorem sat_bind {m : Prog σ ε β} {f : β → Prog σ ε α} :
  ((m >>= f) s).Sat Q E H ↔ (m s).Sat (fun b t => (f b t).Sat Q E H) E H
  := by
  change (andThen m f s).Sat Q E H ↔ _
  simp only [andThen]
  cases m s with
  | ok b t => rfl
  | err e t => rfl
  | halt h => rfl

@[simp]
theorem sat_get {Q : σ → σ → Prop} :
  ((get : Prog σ ε σ) s).Sat Q E H ↔ Q s s
  := Iff.rfl

@[simp]
theorem sat_modify {Q : Unit → σ → Prop} {f : σ → σ} :
  ((modify f : Prog σ ε Unit) s).Sat Q E H ↔ Q () (f s)
  := Iff.rfl

/-- A conditional program may do nothing. -/
theorem sat_when {Q : Unit → σ → Prop} {c : Prop} [Decidable c] {m : Prog σ ε Unit} :
  ((when c m) s).Sat Q E H ↔ (c → (m s).Sat Q E H) ∧ (¬ c → Q () s)
  := by
  rw [when]
  constructor
  · intro hm
    constructor
    · intro hc
      rw [if_pos hc] at hm
      apply hm
    · intro hc
      rw [if_neg hc] at hm
      apply hm
  · intro hm
    split_ifs with hc
    · apply hm.1 hc
    · apply hm.2 hc

/-- Errors become results. -/
@[simp]
theorem sat_attempt {Q : Except ε α → σ → Prop} {m : Prog σ ε α} :
  ((attempt m) s).Sat Q E H ↔ (m s).Sat (fun a => Q (.ok a)) (fun e => Q (.error e)) H
  := by
  simp only [attempt]
  cases m s with
  | ok a t => rfl
  | err e t => rfl
  | halt h => rfl

/-- The postcondition for errors does not matter to a program that cannot fail. -/
theorem sat_lift {m : Prog σ Empty α} {F : Empty → σ → Prop} :
  ((lift m : Prog σ ε α) s).Sat Q E H ↔ (m s).Sat Q F H
  := by
  simp only [lift]
  cases m s with
  | ok a t => rfl
  | err e t => cases e
  | halt h => rfl

end Rules

/-! ## Programs that keep an invariant -/

/-- The program keeps the invariant `I`, moves the state along `R`, and halts only for a reason
in `H`. -/
def Keeps (I : σ → Prop) (R : σ → σ → Prop) (H : Halt → Prop) (m : Prog σ ε α) : Prop :=
  ∀ s, I s → (m s).Sat (fun _ t => I t ∧ R s t) (fun _ t => I t ∧ R s t) H

section Keeps

variable {I : σ → Prop} {R : σ → σ → Prop} {H : Halt → Prop}
variable {f : β → Prog σ ε α} {m : Prog σ ε α} {xs : List β}

/-- A change that keeps the invariant and respects the relation. -/
theorem keeps_modify {f : σ → σ} (h : ∀ s, I s → I (f s) ∧ R s (f s)) :
  Keeps I R H (modify f : Prog σ ε Unit)
  := h

theorem keeps_stop {h : Halt} (hh : H h) :
  Keeps I R H (stop h : Prog σ ε α)
  := fun _ _ => hh

/-- One case for each branch. -/
theorem keeps_ite {c : Prop} [Decidable c] {n : Prog σ ε α} (hm : c → Keeps I R H m)
    (hn : ¬ c → Keeps I R H n) :
  Keeps I R H (if c then m else n)
  := by
  by_cases h : c
  · rw [if_pos h]
    apply hm h
  · rw [if_neg h]
    apply hn h

/-- A program reading the state keeps the invariant if what it does with the state it reads does. -/
theorem keeps_get_bind {f : σ → Prog σ ε α}
    (h : ∀ s, I s → (f s s).Sat (fun _ t => I t ∧ R s t) (fun _ t => I t ∧ R s t) H) :
  Keeps I R H (get >>= f)
  := by
  intro s hs
  apply h s hs

/-- A program that moves the state along a relation keeps every invariant that the relation keeps. -/
theorem Keeps.of_rel {S : σ → σ → Prop} (hm : Keeps (fun _ => True) S H m)
    (hS : ∀ s t, I s → S s t → I t ∧ R s t) :
  Keeps I R H m
  := by
  intro s hs
  apply (hm s trivial).imp_state _ fun _ => id
  intro t ht
  apply hS s t hs ht.2

variable [IsPreorder σ R]

theorem keeps_pure {a : α} :
  Keeps I R H (pure a : Prog σ ε α)
  := fun s hs => ⟨hs, refl s⟩

theorem keeps_throw {e : ε} :
  Keeps I R H (throw e : Prog σ ε α)
  := fun s hs => ⟨hs, refl s⟩

theorem keeps_get :
  Keeps I R H (get : Prog σ ε σ)
  := fun s hs => ⟨hs, refl s⟩

theorem keeps_when {c : Prop} [Decidable c] {m : Prog σ ε Unit} (hm : c → Keeps I R H m) :
  Keeps I R H (when c m)
  := by
  intro s hs
  rw [sat_when]
  exact ⟨fun hc => hm hc s hs, fun _ => ⟨hs, refl s⟩⟩

/-- The bind rule at a fixed state, with what is known of the value and the state in between. -/
theorem sat_bind_keeps {m : Prog σ ε β} {s : σ} (hm : (m s).Sat (fun b t => R s t ∧
      (f b t).Sat (fun _ u => I u ∧ R t u) (fun _ u => I u ∧ R t u) H)
      (fun _ t => I t ∧ R s t) H) :
  ((m >>= f) s).Sat (fun _ t => I t ∧ R s t) (fun _ t => I t ∧ R s t) H
  := by
  rw [sat_bind]
  apply hm.imp
  rintro b t ⟨hst, hf⟩
  apply hf.imp_state _ fun _ => id
  rintro u ⟨hu, htu⟩
  use hu
  apply IsTrans.trans _ _ _ hst htu

/-- Two programs one after the other. -/
theorem keeps_bind {m : Prog σ ε β} (hm : Keeps I R H m) (hf : ∀ b, Keeps I R H (f b)) :
  Keeps I R H (m >>= f)
  := by
  intro s hs
  apply sat_bind_keeps
  apply (hm s hs).imp
  rintro b t ⟨ht, hst⟩
  use hst
  apply hf b t ht

/-- A program for every element of a list. -/
theorem keeps_forEach {f : β → Prog σ ε Unit} (hf : ∀ x ∈ xs, Keeps I R H (f x)) :
  Keeps I R H (forEach xs f)
  := by
  induction xs with
  | nil => apply keeps_pure
  | cons x xs ih =>
    apply keeps_bind
    · apply hf x List.mem_cons_self
    intro _
    apply ih
    intro y hy
    apply hf y (List.mem_cons_of_mem x hy)

end Keeps

/-! ## Programs that preserve an invariant -/

/-- The program maintains the invariant `I` and halts only for a reason in `H`. -/
abbrev Maintains (I : σ → Prop) (H : Halt → Prop) (m : Prog σ ε α) : Prop :=
  Keeps I (fun _ _ => True) H m

/-- The program preserves the invariant `I`. -/
abbrev Preserves (I : σ → Prop) (m : Prog σ ε α) : Prop := Maintains I (fun _ => True) m

instance : IsPreorder σ (fun _ _ => True) where
  refl _ := trivial
  trans _ _ _ _ _ := trivial

section Maintains

variable {I : σ → Prop} {H : Halt → Prop} {s : σ}
variable {m : Prog σ ε α}

/-- What is left to show of a program from one state. -/
theorem sat_maintains (h : (m s).Sat (fun _ => I) (fun _ => I) H) :
  (m s).Sat (fun _ t => I t ∧ True) (fun _ t => I t ∧ True) H
  := by
  apply h.imp_state _ fun _ => id
  intro t ht
  exact ⟨ht, trivial⟩

theorem Maintains.sat (h : Maintains I H m) (hs : I s) :
  (m s).Sat (fun _ => I) (fun _ => I) H
  := by
  apply (h s hs).imp_state _ fun _ => id
  intro t ht
  apply ht.1

theorem maintains_modify {f : σ → σ} (h : ∀ s, I s → I (f s)) :
  Maintains I H (modify f : Prog σ ε Unit)
  := by
  intro s hs
  exact ⟨h s hs, trivial⟩

end Maintains

/-! ## Recursive procedures -/

/-- The procedures given by `body`, where a call is made through the argument of `body`. Every call
costs one unit of fuel, and a call that `allow` does not accept in the state it is made in is
refused. -/
def fixpoint (allow : γ → σ → Bool) (body : (γ → Prog σ ε Unit) → γ → Prog σ ε Unit) :
    ℕ → γ → Prog σ ε Unit
  | 0, _ => stop .outOfFuel
  | n + 1, c => fun s =>
    if allow c s then body (fixpoint allow body n) c s else .halt .refused

/-- Induction over the calls of recursive procedures: a specification that the body meets whenever
the inner calls meet it holds of every call. -/
theorem fixpoint_sat {allow : γ → σ → Bool}
    {body : (γ → Prog σ ε Unit) → γ → Prog σ ε Unit} {T : γ → σ → σ → Prop} {H : Halt → Prop}
    (pre : γ → σ → Prop) (hfuel : H .outOfFuel) (hrefused : H .refused)
    (hbody : ∀ call : γ → Prog σ ε Unit,
      (∀ c s, pre c s → (call c s).Sat (fun _ => T c s) (fun _ => T c s) H) →
      ∀ c s, pre c s → allow c s = true →
        (body call c s).Sat (fun _ => T c s) (fun _ => T c s) H) (n : ℕ) (c : γ) (s : σ)
    (hs : pre c s) :
  (fixpoint allow body n c s).Sat (fun _ => T c s) (fun _ => T c s) H
  := by
  induction n generalizing c s with
  | zero => apply hfuel
  | succ n ih =>
    simp only [fixpoint]
    by_cases h : allow c s = true
    · rw [if_pos h]
      apply hbody _ ih c s hs h
    · rw [if_neg h]
      apply hrefused

end Prog

/-! ## Runs -/

/-- What holds at the start of a run and is kept by every step holds in every state reached. -/
theorem invariant_of_run {step : σ → σ → Prop} {I : σ → Prop}
    (hstep : ∀ s t, I s → step s t → I t) {s t : σ} (hs : I s)
    (h : Relation.ReflTransGen step s t) :
  I t
  := by
  induction h with
  | refl => apply hs
  | tail _ hst ih => apply hstep _ _ ih hst
