import Interpose.Run.World

/-!
# Computations on the world

How computations are taken apart: what a computation followed by another one does, and which
values a computation can end with.
-/

namespace Interpose.Action

variable {α β : Type}

theorem bind_apply (x : Action α) (f : α → Action β) (w : World) :
    (x >>= f) w = match x w with
      | (.ok a, after) => f a after
      | (.error e, after) => (.error e, after) := by
  show StateT.bind x (ExceptT.bindCont f) w = _
  unfold StateT.bind
  rcases x w with ⟨_ | _, _⟩ <;> rfl

@[simp] theorem pure_apply (a : α) (w : World) : (pure a : Action α) w = (.ok a, w) := rfl

@[simp] theorem get_apply (w : World) : (get : Action World) w = (.ok w, w) := rfl

@[simp] theorem raise_apply (e : HostError) (w : World) :
    (raise e : Action α) w = (.error (.raised e), w) := rfl

/-- Goes on after a computation that ended with a value. -/
theorem bind_apply_ok {x : Action α} {f : α → Action β} {w after : World} {a : α}
    (h : x w = (.ok a, after)) : (x >>= f) w = f a after := by
  rw [bind_apply, h]

/-- Nothing goes on after a computation that ended without a value. -/
theorem bind_apply_error {x : Action α} {f : α → Action β} {w after : World} {e : Halt}
    (h : x w = (.error e, after)) : (x >>= f) w = (.error e, after) := by
  rw [bind_apply, h]

/-- What is computed while things are held depends on the world with them held. -/
theorem holding_congr {hs : List Holder} {x y : Action α} {w : World}
    (h : x { w with held := hs ++ w.held } = y { w with held := hs ++ w.held }) :
    World.holding hs x w = World.holding hs y w := by
  rw [World.holding, World.holding, finally_, finally_, h]

/-! ## What a computation ends with -/

/-- Whether every value that a computation ends with has a property. -/
def Yields (x : Action α) (P : α → Prop) : Prop := ∀ w a after, x w = (.ok a, after) → P a

theorem Yields.pure {P : α → Prop} {a : α} (h : P a) : Yields (pure a) P := by
  intro w b after hb
  cases hb
  exact h

theorem Yields.raise {P : α → Prop} {e : HostError} : Yields (raise e : Action α) P := by
  intro w a after ha
  cases ha

/-- What a computation ends with after another one may rest on what that ended with. -/
theorem Yields.bind_of {x : Action α} {f : α → Action β} {P : α → Prop} {Q : β → Prop}
    (hx : Yields x P) (h : ∀ a, P a → Yields (f a) Q) : Yields (x >>= f) Q := by
  intro w b after hb
  rw [bind_apply] at hb
  rcases hw : x w with ⟨_ | a, between⟩
  · simp only [hw] at hb
    cases hb
  · simp only [hw] at hb
    exact h a (hx w a between hw) _ _ _ hb

theorem Yields.bind {x : Action α} {f : α → Action β} {P : β → Prop} (h : ∀ a, Yields (f a) P) :
    Yields (x >>= f) P :=
  Yields.bind_of (fun _ _ _ _ => trivial) fun a (_ : True) => h a

/-- Two ways of going on agree if they agree on the values that a computation can end with. -/
theorem Yields.bind_congr {x : Action α} {P : α → Prop} {f g : α → Action β} (hx : Yields x P)
    (h : ∀ a, P a → f a = g a) : x >>= f = x >>= g := by
  funext w
  rw [bind_apply, bind_apply]
  rcases hw : x w with ⟨_ | a, after⟩
  · rfl
  · exact congrFun (h a (hx w a after hw)) after

/-! ## What a computation holds -/

/-- Whether a computation lets go of all that it held in a world. -/
def LetsGoAt (w : World) (x : Action α) : Prop := (x w).2.held = w.held

/-- Whether a computation lets go of all that it held. -/
def LetsGo (x : Action α) : Prop := ∀ w, (x w).2.held = w.held

theorem LetsGoAt.pure {w : World} {a : α} : LetsGoAt w (pure a) := rfl

theorem LetsGoAt.raise {w : World} {e : HostError} : LetsGoAt w (raise e : Action α) := rfl

/-- A computation that looks at the world and then changes it depends on the world it looks at. -/
theorem LetsGo.of_get {f : World → Action α} (h : ∀ w, LetsGoAt w (f w)) : LetsGo ((get : Action World) >>= f) := by
  intro w
  rw [bind_apply_ok (get_apply w)]
  exact h w

theorem LetsGo.bind {x : Action α} {f : α → Action β} (hx : LetsGo x) (hf : ∀ a, LetsGo (f a)) :
    LetsGo (x >>= f) := by
  intro w
  rw [← hx w, bind_apply]
  rcases x w with ⟨_ | a, after⟩
  · rfl
  · exact hf a after

theorem LetsGo.outcome {x : Action α} (hx : LetsGo x) : LetsGo (outcome x) := by
  intro w
  rw [← hx w, Action.outcome]
  rcases x w with ⟨(_ | _) | _, after⟩ <;> rfl

end Interpose.Action
