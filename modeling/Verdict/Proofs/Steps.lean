/-!
# Steps that may fail

A computation that may fail is followed by another one, which starts from what the first gave. These
lemmas take such chains apart, and compare two of them when only a part of what they give is looked
at: `hide` leaves out what does not matter in between, and `keep` is what matters at the end.
-/

namespace Verdict

variable {ε α β γ : Type} {x y : Except ε α}

/-- What follows a computation that succeeded started from what it gave. -/
theorem bind_eq_ok {f : α → Except ε β} {b : β} (h : x.bind f = .ok b) :
    ∃ a, x = .ok a ∧ f a = .ok b := by
  cases x with
  | error e => cases h
  | ok a => exact ⟨a, rfl, h⟩

/-- Failures that are renamed have the new names only. -/
theorem mapError_ne {ε' : Type} {name : ε → ε'} {e : ε'} (h : ∀ cause, name cause ≠ e) :
    x.mapError name ≠ .error e := by
  cases x with
  | error cause => exact fun heq => h cause (Except.error.inj heq)
  | ok a => exact nofun

/-- What is made of a success changes no failure. -/
theorem map_ne_error {f : α → β} {e : ε} (h : x ≠ .error e) : x.map f ≠ .error e := by
  cases x with
  | error cause => exact fun heq => h (congrArg Except.error (Except.error.inj heq))
  | ok a => exact nofun

variable {hide : α → α} {keep : β → γ}

/-- Alike steps behind alike results have alike results. -/
theorem map_bind_congr {f g : α → Except ε β} (h : x.map hide = y.map hide)
    (hfg : ∀ a b, hide a = hide b → (f a).map keep = (g b).map keep) :
    (x >>= f).map keep = (y >>= g).map keep := by
  cases x with
  | error e =>
      cases y with
      | error e' =>
          cases h
          rfl
      | ok b => cases h
  | ok a =>
      cases y with
      | error e => cases h
      | ok b => exact hfg a b (Except.ok.inj h)

/-- Alike steps behind one result have alike results. -/
theorem map_bind_of_ok {f g : α → Except ε β}
    (hfg : ∀ a, x = .ok a → (f a).map keep = (g a).map keep) :
    (x >>= f).map keep = (x >>= g).map keep := by
  cases x with
  | error e => rfl
  | ok a => exact hfg a rfl

/-- A step that does not see what is hidden has alike results behind alike results. -/
theorem map_bind_hidden {f : α → Except ε β} (h : x.map hide = y.map hide)
    (hf : ∀ a, (f (hide a)).map keep = (f a).map keep) :
    (x >>= f).map keep = (y >>= f).map keep :=
  map_bind_congr h fun a b hab => by rw [← hf a, hab, hf b]

end Verdict
