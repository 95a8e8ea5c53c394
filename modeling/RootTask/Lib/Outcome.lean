import Mathlib.Logic.Basic

/-!
# Postconditions of computations that may fail

`Meets allowed post r` says that `r` returns a value with `post` or fails with an error
that is `allowed`. One rule for each way of building a computation is enough to read a
specification off its text.
-/
namespace RootTask.Outcome

variable {ε α β : Type*}

def Meets (allowed : ε → Prop) (post : α → Prop) : Except ε α → Prop
  | .ok a => post a
  | .error e => allowed e

namespace Meets

variable {allowed more : ε → Prop} {post weaker : α → Prop} {after : β → Prop} {r : Except ε α}

theorem bind {f : α → Except ε β} (first : Meets allowed post r)
    (second : ∀ a, post a → Meets allowed after (f a)) : Meets allowed after (r.bind f) := by
  cases r with
  | ok a => exact second a first
  | error e => exact first

theorem map {f : α → β} (first : Meets allowed post r) (imp : ∀ a, post a → after (f a)) :
    Meets allowed after (r.map f) := by
  cases r with
  | ok a => exact imp a first
  | error e => exact first

theorem mono (meets : Meets allowed post r) (imp : ∀ a, post a → weaker a) :
    Meets allowed weaker r := by
  cases r with
  | ok a => exact imp a meets
  | error e => exact meets

theorem allow (meets : Meets allowed post r) (imp : ∀ e, allowed e → more e) :
    Meets more post r := by
  cases r with
  | ok a => exact meets
  | error e => exact imp e meets

theorem result {a : α} (meets : Meets allowed post r) (returned : r = .ok a) : post a := by
  subst returned
  exact meets

theorem failure {e : ε} (meets : Meets allowed post r) (failed : r = .error e) : allowed e := by
  subst failed
  exact meets

end Meets

end RootTask.Outcome
