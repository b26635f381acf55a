/-
# When a computation succeeds

A computation that may fail succeeds exactly if its steps do: one step behind another
(`bind_eq_ok`), one step for each member of a list (`mapM_eq_ok`, `forM_eq_ok`), and steps
that also pass on a state (`run_bind_eq_ok`).
-/

import HookImage.Error
import Mathlib.Data.List.Forall2

namespace HookImage

variable {ε α β : Type}

/-- Two steps succeed exactly if the first one does and the second one does behind it. -/
theorem bind_eq_ok {x : Except ε α} {f : α → Except ε β} {b : β} :
    x >>= f = .ok b ↔ ∃ a, x = .ok a ∧ f a = .ok b := by
  cases x with
  | error e => exact ⟨fun h => (nomatch h), fun ⟨_, h, _⟩ => (nomatch h)⟩
  | ok a => exact ⟨fun h => ⟨a, rfl, h⟩, fun ⟨_, ha, h⟩ => by cases ha; exact h⟩

/-- A result is the success of its value. -/
@[simp] theorem pure_eq_ok {a b : α} : (pure a : Except ε α) = .ok b ↔ a = b :=
  ⟨fun h => by cases h; rfl, fun h => by rw [h]; rfl⟩

/-- A step with its result changed succeeds exactly if the step does. -/
theorem map_eq_ok {x : Except ε α} {f : α → β} {b : β} :
    x.map f = .ok b ↔ ∃ a, x = .ok a ∧ f a = b := by
  cases x with
  | error e => exact ⟨fun h => (nomatch h), fun ⟨_, h, _⟩ => (nomatch h)⟩
  | ok a => exact ⟨fun h => ⟨a, rfl, Except.ok.inj h⟩, fun ⟨_, ha, h⟩ => by cases ha; rw [← h]; rfl⟩

/-- What is left without the reason of a failure is the success. -/
@[simp] theorem toOption_eq_some {x : Except ε α} {a : α} : x.toOption = some a ↔ x = .ok a := by
  cases x with
  | error e => exact ⟨fun h => (nomatch h), fun h => (nomatch h)⟩
  | ok b => exact ⟨fun h => congrArg _ (Option.some.inj h), fun h => congrArg _ (Except.ok.inj h)⟩

/-- A step for each member succeeds exactly if each of them gives the member of the result at its
place. -/
theorem mapM_eq_ok {f : α → Except ε β} {xs : List α} {ys : List β} :
    xs.mapM f = .ok ys ↔ List.Forall₂ (fun x y => f x = .ok y) xs ys := by
  induction xs generalizing ys with
  | nil =>
    rw [List.mapM_nil, pure_eq_ok]
    exact ⟨fun h => h ▸ .nil, fun h => by cases h; rfl⟩
  | cons x xs ih =>
    simp only [List.mapM_cons, bind_eq_ok, pure_eq_ok, ih]
    constructor
    · rintro ⟨y, hy, ys, hys, rfl⟩
      exact .cons hy hys
    · intro h
      cases h with
      | cons hy hys => exact ⟨_, hy, _, hys, rfl⟩

/-- Checks of all members succeed exactly if each check does. -/
theorem forM_eq_ok {f : α → Except ε Unit} {xs : List α} :
    xs.forM f = .ok () ↔ ∀ x ∈ xs, f x = .ok () := by
  induction xs with
  | nil => exact ⟨fun _ _ h => (nomatch h), fun _ => rfl⟩
  | cons x xs ih =>
    show (f x >>= fun _ => xs.forM f) = .ok () ↔ _
    rw [bind_eq_ok, List.forall_mem_cons, ← ih]
    exact ⟨fun ⟨(), h⟩ => h, fun h => ⟨(), h⟩⟩

/-- A step whose result only goes into what is returned does not decide about success. -/
theorem exists_map_eq_ok {x : Except ε α} {f : α → β} :
    (∃ b, (x >>= fun a => pure (f a)) = .ok b) ↔ ∃ a, x = .ok a := by
  cases x with
  | error e => exact ⟨fun ⟨_, h⟩ => (nomatch h), fun ⟨_, h⟩ => (nomatch h)⟩
  | ok a => exact ⟨fun _ => ⟨a, rfl⟩, fun _ => ⟨_, rfl⟩⟩

/-- Two steps succeed exactly if both do, where the result of the first one does not decide
about the second. -/
theorem exists_bind_eq_ok {x : Except ε α} {f : α → Except ε β} {p : Prop}
    (h : ∀ a, (∃ b, f a = .ok b) ↔ p) : (∃ b, x >>= f = .ok b) ↔ (∃ a, x = .ok a) ∧ p := by
  cases x with
  | error e => exact ⟨fun ⟨_, h⟩ => (nomatch h), fun ⟨⟨_, h⟩, _⟩ => (nomatch h)⟩
  | ok a => exact ⟨fun hb => ⟨⟨a, rfl⟩, (h a).1 hb⟩, fun hp => (h a).2 hp.2⟩

/-- A step for each member succeeds exactly if each step does. -/
theorem exists_mapM_eq_ok {f : α → Except ε β} {xs : List α} :
    (∃ ys, xs.mapM f = .ok ys) ↔ ∀ x ∈ xs, ∃ y, f x = .ok y := by
  induction xs with
  | nil => exact ⟨fun _ _ h => (nomatch h), fun _ => ⟨[], rfl⟩⟩
  | cons x xs ih =>
    rw [List.mapM_cons, exists_bind_eq_ok fun _ => exists_map_eq_ok, ih, List.forall_mem_cons]

/-- A malformation is reported as an error of the whole. -/
@[simp] theorem liftM_eq_ok {x : Except Malformation α} {a : α} :
    (liftM x : Except Error α) = .ok a ↔ x = .ok a := by
  cases x with
  | error e => exact ⟨fun h => (nomatch h), fun h => (nomatch h)⟩
  | ok b => exact ⟨fun h => by cases h; rfl, fun h => by cases h; rfl⟩

/-- Giving a fault as an error changes no success. -/
theorem exists_liftM_eq_ok {x : Except Malformation α} :
    (∃ a, (liftM x : Except Error α) = .ok a) ↔ ∃ a, x = .ok a :=
  exists_congr fun _ => liftM_eq_ok

variable {σ : Type}

/-- Two steps with a state succeed exactly if the first one does and the second one does behind
it. -/
theorem run_bind_eq_ok {x : ExceptT ε (StateM σ) α} {f : α → ExceptT ε (StateM σ) β} {s s'' : σ}
    {b : β} : (x >>= f).run.run s = (.ok b, s'') ↔
      ∃ a s', x.run.run s = (.ok a, s') ∧ (f a).run.run s' = (.ok b, s'') := by
  rw [ExceptT.run_bind, StateT.run_bind]
  show (match x.run.run s with | (r, s') => _) = _ ↔ _
  rcases x.run.run s with ⟨_ | a, s'⟩
  · exact ⟨fun h => (nomatch h), fun ⟨_, _, h, _⟩ => (nomatch h)⟩
  · exact ⟨fun h => ⟨a, s', rfl, h⟩, fun ⟨_, _, ha, h⟩ => by cases ha; exact h⟩

/-- A result is a success that keeps the state. -/
theorem run_pure_eq_ok {a b : α} {s s' : σ} :
    (pure a : ExceptT ε (StateM σ) α).run.run s = (.ok b, s') ↔ a = b ∧ s = s' :=
  ⟨fun h => by cases h; exact ⟨rfl, rfl⟩, fun ⟨ha, hs⟩ => by rw [ha, hs]; rfl⟩

/-- A step that needs no state. -/
theorem run_lift_eq_ok {x : Except ε α} {a : α} {s s' : σ} :
    (ExceptT.mk (pure x) : ExceptT ε (StateM σ) α).run.run s = (.ok a, s') ↔
      x = .ok a ∧ s = s' :=
  ⟨fun h => by cases h; exact ⟨rfl, rfl⟩, fun ⟨ha, hs⟩ => by rw [ha, hs]; rfl⟩

/-- Two steps that cannot fail, one behind the other. -/
theorem run_bind_eq {x : StateM σ α} {f : α → StateM σ β} {s s' s'' : σ} {a : α} {b : β}
    (hx : x.run s = (a, s')) (hf : (f a).run s' = (b, s'')) : (x >>= f).run s = (b, s'') := by
  rw [StateT.run_bind, hx]
  exact hf

/-- Two steps with a state run one after the other. -/
theorem exists_of_run_bind {x : StateM σ α} {f : α → StateM σ β} {s s'' : σ} {b : β}
    (h : (x >>= f).run s = (b, s'')) : ∃ a s', x.run s = (a, s') ∧ (f a).run s' = (b, s'') :=
  ⟨_, _, rfl, h⟩

/-- A step that cannot fail. -/
theorem run_liftM_eq_ok {x : StateM σ α} {a : α} {s s' : σ} :
    (liftM x : ExceptT ε (StateM σ) α).run.run s = (.ok a, s') ↔ x.run s = (a, s') := by
  show (match x.run s with | (a, s') => ((.ok a, s') : Except ε α × σ)) = _ ↔ _
  rcases x.run s with ⟨a', s''⟩
  exact ⟨fun h => by cases h; rfl, fun h => by cases h; rfl⟩

end HookImage
