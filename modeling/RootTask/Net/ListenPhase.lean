import Mathlib.Data.List.Nodup
import RootTask.Net.SyncServer

/-!
# The listen phase of the synchronous server

The first loop is meant to end once all clients have listened. Its counter starts again with
every pass and counts every request, so the loop ends with the first pass in which each
endpoint delivers a request, whenever the Listens were processed.

## Main result

`leaves_listen_phase`: the loop never ends too early, and it ends with the pass of the last
Listen exactly if that pass hears every client.
-/
namespace RootTask.Net

open RootTask.Runtime RootTask.Transition

theorem createEps_length (slot : Nat) : (createEps slot).length = threadNum := by
  simp [createEps]

theorem createEps_nodup (slot : Nat) : (createEps slot).Nodup := by
  apply List.Nodup.map
  · intro i j same
    have equal : slot + i = slot + j := congrArg Endpoint.cptr same
    omega
  · exact List.nodup_range

namespace SyncServer

variable {σ F : Type} {stack : Smoltcp σ F} {slot : Nat} {s t : SyncServer σ}

/-- The Listen of every client was processed. -/
def AllListened (slot : Nat) (s : SyncServer σ) : Prop := ∀ ep ∈ createEps slot, ep ∈ s.listened

/-- Every endpoint delivered a request in this pass. -/
def AllHeard (slot : Nat) (s : SyncServer σ) : Prop := ∀ ep ∈ createEps slot, ep ∈ s.heard

instance : Decidable (AllListened slot s) := inferInstanceAs (Decidable (∀ ep ∈ createEps slot, _))

instance : Decidable (AllHeard slot s) := inferInstanceAs (Decidable (∀ ep ∈ createEps slot, _))

/-- The endpoint that the thread looks at next. -/
def nextEp (s : SyncServer σ) : Option Endpoint :=
  match s.loop with
  | .listening rest _ => rest.head?
  | .idle => none
  | .serving rest => rest.head?

/-- The first request of a client is a Listen, and no other one is: `tcp_server` calls
`sync_listen` once, before it receives or sends. -/
def ListensFirst (s : SyncServer σ) : SyncAction F → Prop
  | .nbRecv badge regs =>
    badge = 0 ∨ badge = 1 ∨ ∀ ep ∈ s.nextEp, (regs.type = .listen ↔ ep ∉ s.listened)
  | _ => True

instance (s : SyncServer σ) : DecidablePred (ListensFirst (F := F) s)
  | .nbRecv badge _ =>
    inferInstanceAs (Decidable (badge = 0 ∨ badge = 1 ∨ ∀ ep ∈ s.nextEp, _))
  | .ntfnPoll _ | .frame _ | .run | .store _ _ => .isTrue trivial

/-- At the end of the pass in which the last Listen was processed, every endpoint has
delivered a request in this pass. -/
def HearsAll (slot : Nat) (s : SyncServer σ) : SyncAction F → Prop
  | .run => s.polling = none → s.nextEp = none → s.AllListened slot → s.AllHeard slot
  | _ => True

/-- What a pass has counted. After the loop, all clients have listened. -/
def PassOk (slot : Nat) (s : SyncServer σ) : Prop :=
  match s.loop with
  | .listening rest listenCnt =>
    (∃ done, createEps slot = done ++ rest ∧ s.heard.Sublist done) ∧
      s.heard.length = listenCnt ∧ ∀ ep ∈ s.heard, ep ∈ s.listened
  | _ => s.AllListened slot

theorem passOk_init : (init stack slot).PassOk slot :=
  ⟨⟨[], rfl, .slnil⟩, rfl, nofun⟩

/-- At its end, a pass has counted all endpoints or missed one. -/
theorem PassOk.allHeard_iff (ok : s.PassOk slot) {listenCnt : Nat}
    (at_ : s.loop = .listening [] listenCnt) : s.AllHeard slot ↔ listenCnt = threadNum := by
  rw [PassOk, at_] at ok
  obtain ⟨⟨done, split, sub⟩, counted, -⟩ := ok
  rw [List.append_nil] at split
  subst split
  constructor
  · intro all
    have most := sub.length_le
    -- the endpoints are distinct, so hearing all of them takes at least as many requests
    have least := (createEps_nodup slot).subperm all |>.length_le
    rw [createEps_length] at most least
    omega
  · intro full ep member
    -- a full count leaves none of the endpoints out
    have equal : s.heard = createEps slot := by
      apply sub.eq_of_length
      rw [counted, full, createEps_length]
    rw [equal]
    exact member

theorem PassOk.allListened (ok : s.PassOk slot) {listenCnt : Nat}
    (at_ : s.loop = .listening [] listenCnt) (full : listenCnt = threadNum) :
    s.AllListened slot := by
  have heard := (ok.allHeard_iff at_).mpr full
  rw [PassOk, at_] at ok
  intro ep member
  exact ok.2.2 ep (heard ep member)

/-- The loop and the ledgers of a pass are as before. -/
theorem PassOk.same (ok : s.PassOk slot) (loop : t.loop = s.loop) (heard : t.heard = s.heard)
    (listened : t.listened = s.listened) : t.PassOk slot := by
  unfold PassOk AllListened at *
  rw [loop, heard, listened]
  exact ok

theorem Replied.same (replied : s.Replied t) :
    t.loop = s.loop ∧ t.heard = s.heard ∧ t.listened = s.listened := by
  cases replied
  exact ⟨rfl, rfl, rfl⟩

/-- `process_req` moves on neither the loop nor the pass; it processes a Listen or leaves the
ledger alone. -/
theorem Handled.listening {ep : Endpoint} {regs : MsgRegs} (handled : Handled stack s ep regs t) :
    t.loop = s.loop ∧ t.heard = s.heard ∧
      t.listened = if regs.type = .listen then s.listened ++ [ep] else s.listened := by
  cases handled with
  | listen handler sockets table type _ _ => exact ⟨rfl, rfl, by rw [if_pos type]⟩
  | recv _ type replied =>
    obtain ⟨loop, heard, listened⟩ := replied.same
    exact ⟨loop, heard, by rw [listened, type]; rfl⟩
  | block type => exact ⟨rfl, rfl, by rw [type]; rfl⟩
  | send size sockets type _ _ => exact ⟨rfl, rfl, by rw [type]; rfl⟩
  | dropSend type _ => exact ⟨rfl, rfl, by rw [type]; rfl⟩
  | other noListen _ => exact ⟨rfl, rfl, by rw [if_neg noListen]⟩

theorem Advanced.nextEp {ep : Endpoint} {heard : Bool} (advanced : s.Advanced ep heard t) :
    s.nextEp = some ep := by
  cases advanced with
  | quiet _ _ at_ => simp [SyncServer.nextEp, at_]
  | heard _ _ at_ => simp [SyncServer.nextEp, at_]
  | serving _ _ at_ => simp [SyncServer.nextEp, at_]

/-- A pass goes on without a request. -/
theorem Advanced.passOk {ep : Endpoint} (advanced : s.Advanced ep false t) (ok : s.PassOk slot) :
    t.PassOk slot := by
  unfold PassOk at ok
  cases advanced with
  | quiet rest listenCnt at_ =>
    rw [at_] at ok
    obtain ⟨⟨done, split, sub⟩, counted, listened⟩ := ok
    exact ⟨⟨done ++ [ep], by simp [split], sub.trans (List.sublist_append_left _ _)⟩, counted,
      listened⟩
  | serving rest _ at_ =>
    rw [at_] at ok
    exact ok

/-- A pass hears a client, whose first request is its Listen. -/
theorem Advanced.heard_passOk {s₁ : SyncServer σ} {ep : Endpoint} {regs : MsgRegs}
    (advanced : s.Advanced ep true s₁) (handled : Handled stack s₁ ep regs t)
    (ok : s.PassOk slot) (first : regs.type = .listen ↔ ep ∉ s.listened) : t.PassOk slot := by
  obtain ⟨loop, heard, listened⟩ := handled.listening
  have same : s₁.listened = s.listened := by cases advanced <;> rfl
  -- the ledger of Listens only grows
  have grows : ∀ e ∈ s.listened, e ∈ t.listened := by
    intro e member
    rw [listened, same]
    split
    · exact List.mem_append_left _ member
    · exact member
  -- the request is the Listen of this client, or comes after it
  have mine : ep ∈ t.listened := by
    by_cases known : ep ∈ s.listened
    · exact grows ep known
    · rw [listened, if_pos (first.mpr known)]
      exact List.mem_append_right _ (List.mem_singleton_self ep)
  unfold PassOk at *
  rw [loop]
  cases advanced with
  | heard rest listenCnt at_ =>
    rw [at_] at ok
    obtain ⟨⟨done, split, sub⟩, counted, before⟩ := ok
    refine ⟨⟨done ++ [ep], by simp [split], ?_⟩, ?_, ?_⟩
    · rw [heard]
      exact sub.append (.refl _)
    · rw [heard]
      simp [counted]
    · intro e member
      rw [heard] at member
      rcases List.mem_append.mp member with old | new
      · exact grows e (before e old)
      · obtain rfl := List.mem_singleton.mp new
        exact mine
  | serving rest _ at_ =>
    rw [at_] at ok
    intro e member
    exact grows e (ok e member)

theorem Moved.passOk {a : SyncAction F} (moved : Moved stack slot s a t) (ok : s.PassOk slot)
    (first : s.ListensFirst a) : t.PassOk slot := by
  cases moved with
  | interrupt outside at_ => exact ok
  | serve badge outside at_ =>
    rw [PassOk, at_] at ok
    exact ok
  | nothing ep regs _ outside advanced => exact advanced.passOk ok
  | interrupted ep regs s₁ outside advanced => exact (advanced.passOk ok).same rfl rfl rfl
  | request ep badge regs s₁ _ outside advanced noNothing noInterrupt handled =>
    apply advanced.heard_passOk handled ok
    rcases first with nothing | interrupt | first
    · exact absurd nothing noNothing
    · exact absurd interrupt noInterrupt
    · exact first ep advanced.nextEp
  | frame caller f net inside received => exact ok.same rfl rfl rfl
  | returned inside busy => exact ok.same rfl rfl rfl
  | returnedIdle inside at_ =>
    rw [PassOk, at_] at ok
    exact ok
  | sent ep size inside => exact ok.same rfl rfl rfl
  | passEnd listenCnt outside at_ =>
    unfold endListenPass
    split
    -- a full count: all were heard, so all have listened
    next full => exact ok.allListened at_ full
    next => exact ⟨⟨[], rfl, .slnil⟩, rfl, nofun⟩
  | served tasks t outside at_ replied =>
    have listened := replied.same.2.2
    rw [PassOk, at_] at ok
    change ∀ ep ∈ createEps slot, ep ∈ t.listened
    rw [listened]
    exact ok
  | store buffer bytes => exact ok.same rfl rfl rfl

/-- No pass starts with all Listens processed. -/
def StartsEarly (slot : Nat) (s : SyncServer σ) : Prop :=
  ∀ listenCnt, s.loop = .listening (createEps slot) listenCnt → ¬ s.AllListened slot

theorem startsEarly_init : (init stack slot).StartsEarly slot := by
  intro listenCnt _ all
  exact absurd (all ⟨slot + 0⟩ (List.mem_map.mpr ⟨0, by simp, rfl⟩)) (by simp [init])

/-- What is left of a pass that has taken an endpoint is not the whole of it. -/
theorem PassOk.rest_ne (ok : s.PassOk slot) {ep : Endpoint} {rest : List Endpoint} {listenCnt : Nat}
    (at_ : s.loop = .listening (ep :: rest) listenCnt) : rest ≠ createEps slot := by
  rw [PassOk, at_] at ok
  obtain ⟨⟨done, split, -⟩, -⟩ := ok
  rintro rfl
  have lengths := congrArg List.length split
  simp at lengths
  omega

theorem Advanced.started {ep : Endpoint} {heard : Bool} (advanced : s.Advanced ep heard t)
    (ok : s.PassOk slot) (listenCnt : Nat) : t.loop ≠ .listening (createEps slot) listenCnt := by
  intro at_start
  cases advanced with
  | quiet rest _ at_ => exact ok.rest_ne at_ (Loop.listening.inj at_start).1
  | heard rest _ at_ => exact ok.rest_ne at_ (Loop.listening.inj at_start).1
  | serving rest _ at_ => cases at_start

theorem Moved.startsEarly {a : SyncAction F} (moved : Moved stack slot s a t) (ok : s.PassOk slot)
    (early : s.StartsEarly slot) (hears : s.HearsAll slot a) : t.StartsEarly slot := by
  cases moved with
  | interrupt outside at_ => exact early
  | serve badge outside at_ => exact nofun
  | nothing ep regs _ outside advanced =>
    intro listenCnt at_start
    exact absurd at_start (advanced.started ok listenCnt)
  | interrupted ep regs s₁ outside advanced =>
    intro listenCnt at_start
    exact absurd at_start (advanced.started ok listenCnt)
  | request ep badge regs s₁ _ outside advanced _ _ handled =>
    intro listenCnt at_start
    rw [handled.listening.1] at at_start
    exact absurd at_start (advanced.started ok listenCnt)
  | frame caller f net inside received => exact early
  | returned inside busy => exact early
  | returnedIdle inside at_ => exact nofun
  | sent ep size inside => exact early
  | passEnd listenCnt outside at_ =>
    unfold endListenPass
    split
    next => exact nofun
    next missed =>
      intro _ _ all
      -- a pass that hears everyone has counted to the number of threads
      have heard := hears outside (by simp [nextEp, at_]) all
      exact missed ((ok.allHeard_iff at_).mp heard)
  | served tasks t outside at_ replied => exact nofun
  | store buffer bytes => exact early

theorem step_passEnd (outside : s.polling = none) {listenCnt : Nat}
    (at_ : s.loop = .listening [] listenCnt) :
    s.step stack slot .run = some (s.endListenPass slot listenCnt) := by
  simp [step, act, outside, at_, Except.toOption]

theorem Reaches.passOk (run : Reaches (step stack slot) ListensFirst (init stack slot) s) :
    s.PassOk slot := by
  have both : s.Locked ∧ s.PassOk slot := by
    apply run.invariant (fun s => s.Locked ∧ s.PassOk slot) ⟨locked_init, passOk_init⟩
    rintro s a t ⟨locked, ok⟩ first moved
    have moved' := step_moved locked moved
    exact ⟨moved'.locked locked, moved'.passOk ok first⟩
  exact both.2

/-- Let every client's first request be its only Listen. If the pass that processes the last
Listen hears every client, no pass starts with all Listens processed, the loop ends with that
pass, and never before. A pass that misses a client starts the loop again. -/
theorem leaves_listen_phase (stack : Smoltcp σ F) (slot : Nat) :
    (∀ s, Reaches (step stack slot) (fun s a => s.ListensFirst a ∧ s.HearsAll slot a)
        (init stack slot) s →
      (∀ listenCnt, s.loop = .listening (createEps slot) listenCnt → ¬ s.AllListened slot) ∧
      ((∀ rest listenCnt, s.loop ≠ .listening rest listenCnt) → s.AllListened slot) ∧
      (∀ listenCnt, s.polling = none → s.loop = .listening [] listenCnt →
        s.HearsAll slot (.run : SyncAction F) → s.AllListened slot →
        s.step stack slot .run = some { s with loop := .idle })) ∧
    ∀ s, Reaches (step stack slot) ListensFirst (init stack slot) s →
      ∀ listenCnt, s.polling = none → s.loop = .listening [] listenCnt → s.AllListened slot →
        ¬ s.AllHeard slot → ∃ t, s.step stack slot .run = some t ∧
          t.loop = .listening (createEps slot) 0 ∧ t.AllListened slot := by
  constructor
  · intro s run
    obtain ⟨⟨locked, ok⟩, early⟩ : (s.Locked ∧ s.PassOk slot) ∧ s.StartsEarly slot := by
      apply run.invariant (fun s => (s.Locked ∧ s.PassOk slot) ∧ s.StartsEarly slot)
        ⟨⟨locked_init, passOk_init⟩, startsEarly_init⟩
      rintro s a t ⟨⟨locked, ok⟩, early⟩ ⟨first, hears⟩ moved
      have moved' := step_moved locked moved
      exact ⟨⟨moved'.locked locked, moved'.passOk ok first⟩, moved'.startsEarly ok early hears⟩
    refine ⟨early, ?_, ?_⟩
    · intro after
      -- after the first loop the invariant is that all have listened
      unfold PassOk at ok
      split at ok
      next rest listenCnt at_ => exact absurd at_ (after rest listenCnt)
      · exact ok
    · intro listenCnt outside at_ hears all
      have heard := hears outside (by simp [nextEp, at_]) all
      rw [step_passEnd outside at_, endListenPass, if_pos ((ok.allHeard_iff at_).mp heard)]
  · intro s run listenCnt outside at_ all missed
    have ok := Reaches.passOk run
    refine ⟨_, step_passEnd outside at_, ?_⟩
    rw [endListenPass, if_neg fun full => missed ((ok.allHeard_iff at_).mpr full)]
    exact ⟨rfl, all⟩

instance (s : SyncServer σ) : DecidablePred (HearsAll (F := F) slot s)
  | .run => inferInstanceAs
      (Decidable (s.polling = none → s.nextEp = none → s.AllListened slot → s.AllHeard slot))
  | .ntfnPoll _ | .nbRecv _ _ | .frame _ | .store _ _ => .isTrue trivial

/-- All clients listen in the first pass. -/
theorem leaves_listen_phase_one_pass :
    ∃ s, Reaches (step mini 0) (fun s a => s.ListensFirst a ∧ s.HearsAll 0 a) (init mini 0) s ∧
      s.AllListened 0 ∧ s.step mini 0 .run = some { s with loop := .idle } := by
  obtain ⟨s, run, view⟩ := reaches_of_view (step mini 0)
    (fun s a => s.ListensFirst a ∧ s.HearsAll 0 a) (init mini 0) listenPass.dropLast
    (fun s => (s.polling, s.loop, decide (s.AllListened 0), decide (s.AllHeard 0)))
    (v := (none, .listening [] threadNum, true, true)) (by decide +kernel)
  simp only [Prod.mk.injEq, decide_eq_true_eq] at view
  obtain ⟨outside, at_, all, heard⟩ := view
  exact ⟨s, run, all, ((leaves_listen_phase mini 0).1 s run).2.2 threadNum outside at_
    (fun _ _ _ => heard) all⟩

/-- The last client listens in the second pass: the third one starts with all Listens
processed. -/
theorem listens_over_two_passes :
    ∃ s, Reaches (step mini 0) ListensFirst (init mini 0) s ∧
      s.loop = .listening (createEps 0) 0 ∧ s.AllListened 0 := by
  obtain ⟨s, run, view⟩ := reaches_of_view (step mini 0) ListensFirst (init mini 0)
    ((List.range 31).map (request · .listen 80 0 0) ++ [signal 0, .run] ++
      List.replicate 31 (signal 0) ++ [request 31 .listen 80 0 0, .run])
    (fun s => (s.loop, decide (s.AllListened 0)))
    (v := (.listening (createEps 0) 0, true)) (by decide +kernel)
  simp only [Prod.mk.injEq, decide_eq_true_eq] at view
  exact ⟨s, run, view⟩

end SyncServer

end RootTask.Net
