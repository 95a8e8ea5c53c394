import Mathlib.Data.List.Nodup
import Mathlib.Logic.Function.Basic

/-!
# Custody

Things wander between places: through queues, mailboxes and the hands of processes. A key tells
whose a thing is. As long as things are only dropped, taken out of one place or put into another,
and nobody's second thing is put anywhere while the first is still somewhere, no key is in two
places or twice in one.
-/
namespace RootTask.Custody

variable {P A K : Type*} [DecidableEq P] {key : A → K} {good good' : A → Prop}
  {contents : P → List A}

/-- No key is in two places or twice in one, and everything that is somewhere is good. -/
structure Exclusive (key : A → K) (good : A → Prop) (contents : P → List A) : Prop where
  nodup : ∀ p, ((contents p).map key).Nodup
  apart : ∀ p q, ∀ a ∈ contents p, ∀ b ∈ contents q, key a = key b → p = q
  good : ∀ p, ∀ a ∈ contents p, good a

/-- Nothing with this key is anywhere. -/
def Absent (key : A → K) (contents : P → List A) (k : K) : Prop :=
  ∀ p, ∀ a ∈ contents p, key a ≠ k

theorem mem_update {p q : P} {l : List A} {a : A} (member : a ∈ Function.update contents p l q) :
    (q = p ∧ a ∈ l) ∨ (q ≠ p ∧ a ∈ contents q) := by
  by_cases same : q = p
  · subst same
    rw [Function.update_self] at member
    exact .inl ⟨rfl, member⟩
  · rw [Function.update_of_ne same] at member
    exact .inr ⟨same, member⟩

theorem mem_of_update {p q : P} {l : List A} {a : A} (sub : l.Sublist (contents p))
    (member : a ∈ Function.update contents p l q) : a ∈ contents q := by
  rcases mem_update member with ⟨rfl, here⟩ | ⟨-, elsewhere⟩
  · exact sub.subset here
  · exact elsewhere

omit [DecidableEq P] in
theorem Exclusive.of_empty (empty : ∀ p, contents p = []) : Exclusive key good contents := by
  constructor <;> simp [empty]

omit [DecidableEq P] in
theorem Exclusive.imp (held : Exclusive key good contents)
    (better : ∀ p, ∀ a ∈ contents p, good a → good' a) : Exclusive key good' contents :=
  ⟨held.nodup, held.apart, fun p a here => better p a here (held.good p a here)⟩

/-- Some of what is in a place is dropped. -/
theorem Exclusive.drop (held : Exclusive key good contents) {p : P} {l : List A}
    (sub : l.Sublist (contents p)) : Exclusive key good (Function.update contents p l) := by
  constructor
  case nodup =>
    intro q
    by_cases same : q = p
    · subst same
      rw [Function.update_self]
      exact (held.nodup q).sublist (sub.map key)
    · rw [Function.update_of_ne same]
      exact held.nodup q
  case apart =>
    exact fun q r a here b there => held.apart q r a (mem_of_update sub here) b
      (mem_of_update sub there)
  case good => exact fun q a here => held.good q a (mem_of_update sub here)

theorem Absent.drop {k : K} (absent : Absent key contents k) {p : P} {l : List A}
    (sub : l.Sublist (contents p)) : Absent key (Function.update contents p l) k :=
  fun q a here => absent q a (mem_of_update sub here)

/-- What is taken from the front of a place was good, and its key is nowhere any more. -/
theorem Exclusive.take (held : Exclusive key good contents) {p : P} {a : A} {rest : List A}
    (front : contents p = a :: rest) :
    Exclusive key good (Function.update contents p rest) ∧
      Absent key (Function.update contents p rest) (key a) ∧ good a := by
  have first : a ∈ contents p := by
    rw [front]
    exact List.mem_cons_self
  refine ⟨held.drop (by rw [front]; exact List.sublist_cons_self a rest), ?_, held.good p a first⟩
  intro q b there same
  rcases mem_update there with ⟨rfl, here⟩ | ⟨elsewhere, there⟩
  · have nodup := held.nodup q
    rw [front, List.map_cons, List.nodup_cons] at nodup
    exact nodup.1 (List.mem_map.mpr ⟨b, here, same⟩)
  · exact elsewhere (held.apart q p b there a first same)

/-- Something whose key is nowhere is put behind some of what is in a place. -/
theorem Exclusive.put (held : Exclusive key good contents) {p : P} {l : List A} {a : A}
    (absent : Absent key contents (key a)) (isGood : good a) (sub : l.Sublist (contents p)) :
    Exclusive key good (Function.update contents p (l ++ [a])) := by
  have cases_ : ∀ q b, b ∈ Function.update contents p (l ++ [a]) q →
      (q = p ∧ b = a) ∨ b ∈ contents q := by
    intro q b member
    rcases mem_update member with ⟨rfl, here⟩ | ⟨-, elsewhere⟩
    · rcases List.mem_append.mp here with old | new
      · exact .inr (sub.subset old)
      · exact .inl ⟨rfl, List.mem_singleton.mp new⟩
    · exact .inr elsewhere
  constructor
  case nodup =>
    intro q
    by_cases same : q = p
    · subst same
      rw [Function.update_self, List.map_append, List.nodup_append]
      refine ⟨(held.nodup q).sublist (sub.map key), List.nodup_singleton _, ?_⟩
      rintro k old k' new rfl
      obtain ⟨b, here, rfl⟩ := List.mem_map.mp old
      exact absent q b (sub.subset here) (by simpa using new)
    · rw [Function.update_of_ne same]
      exact held.nodup q
  case apart =>
    intro q r b inQ c inR same
    rcases cases_ q b inQ with ⟨rfl, rfl⟩ | here
    · rcases cases_ r c inR with ⟨rfl, -⟩ | there
      · rfl
      · exact absurd same.symm (absent r c there)
    · rcases cases_ r c inR with ⟨rfl, rfl⟩ | there
      · exact absurd same (absent q b here)
      · exact held.apart q r b here c there same
  case good =>
    intro q b member
    rcases cases_ q b member with ⟨-, rfl⟩ | here
    · exact isGood
    · exact held.good q b here

/-- Something is taken from the front of a place, and something with the same key is put into a
place; in between, what is good may change for everybody else's things. -/
theorem Exclusive.replace (held : Exclusive key good contents) {p q : P} {a b : A}
    {rest l : List A} (front : contents p = a :: rest) (same : key b = key a)
    (better : ∀ c, key c ≠ key a → good c → good' c) (isGood : good a → good' b)
    (sub : l.Sublist (Function.update contents p rest q)) :
    Exclusive key good' (Function.update (Function.update contents p rest) q (l ++ [b])) := by
  obtain ⟨left, absent, wasGood⟩ := held.take front
  refine (left.imp fun r c here => better c (absent r c here)).put ?_ (isGood wasGood) sub
  rw [same]
  exact absent

end RootTask.Custody
