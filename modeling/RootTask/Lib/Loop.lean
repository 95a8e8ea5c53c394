import RootTask.Lib.Outcome

/-!
# Counted loops

`loop n body` is `for i in 0..n`, with a body that may fail. Its rule is the usual one: what holds
before the first round and is carried from each round to the next holds at the end, and the loop
fails only as its body does.
-/
namespace RootTask.Loop

open RootTask.Outcome

variable {ε σ : Type*}

def loop : (n : Nat) → (Fin n → σ → Except ε σ) → σ → Except ε σ
  | 0, _, s => .ok s
  | n + 1, body, s => (loop n (fun i => body i.castSucc) s).bind (body (Fin.last n))

theorem loop_meets {allowed : ε → Prop} (inv : Nat → σ → Prop) {n : Nat}
    {body : Fin n → σ → Except ε σ} {s : σ} (initial : inv 0 s)
    (round : ∀ (i : Fin n) s, inv i s → Meets allowed (inv (i + 1)) (body i s)) :
    Meets allowed (inv n) (loop n body s) := by
  induction n with
  | zero => exact initial
  | succ n ih =>
    rw [loop]
    exact (ih fun i => round i.castSucc).bind fun s before => round (Fin.last n) s before

end RootTask.Loop
