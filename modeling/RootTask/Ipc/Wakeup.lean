import RootTask.Ipc.Channel

/-!
# Wake-ups of the receive coroutines

The reader does not look at the queue again after it stored `false`. A writer that pushes
and loads the status between the empty pop and the store sends no interrupt, and its item
waits for a reader that nothing will wake.

## Proof strategy

Outside that window a raised status means that a wake-up is under way: `ChannelOk` says so
for a reader that has stored `false`, and that a reader on its way to sleep is owed a wake-up
whenever there are items.
-/
namespace RootTask.Ipc

open RootTask.Runtime RootTask.Transition

variable {φ T : Type}

namespace System

/-- The writer is between its push and its interrupt, the interrupt is in flight, or the
executor knows of it. -/
def Pending (s : System φ T) (side : Side) : Prop :=
  (s.thread side.other).writer ≠ .idle ∨ (s.channel side).uipi = true ∨
    Awake (s.thread side).lib.executor (s.thread side).receiver

/-- Items for a suspended reader never wait without a wake-up. -/
def WakeupKept (s : System φ T) (side : Side) : Prop :=
  (s.channel side).items.items ≠ [] → (s.thread side).reader = .suspended → s.Pending side

/-- No writer finds the status still raised when the reader has already seen an empty queue. -/
def NoStaleLoad (s : System φ T) : Side × Action φ T → Prop
  | (side, .load) =>
    (s.channel side.other).status = true → (s.thread side.other).reader ≠ .clear
  | _ => True

end System

/-- One direction: its reader's thread, where its writer stands, and the channel. -/
structure ChannelOk (t : Thread φ T) (w : Writer) (c : Channel T) : Prop where
  wakeup : c.items.items ≠ [] → t.reader = .clear ∨ t.reader.settled = true →
    w ≠ .idle ∨ c.uipi = true ∨ t.Awake
  raised : c.status = true → t.reader.settled = true → w = .send ∨ c.uipi = true ∨ t.Awake

theorem ChannelOk.localEffect {t t' : Thread φ T} {w : Writer} {c : Channel T} (ok : ChannelOk t w c)
    (effect : t.LocalEffect t') : ChannelOk t' w c where
  wakeup items asleep := by
    rcases effect.settled (asleep.resolve_left effect.notClear) with awake | ⟨before, kept⟩
    · exact .inr (.inr awake)
    -- it slept before the step too, and whatever was to wake it still is
    · exact (ok.wakeup items (.inr before)).imp_right (.imp_right kept)
  raised status settled := by
    rcases effect.settled settled with awake | ⟨before, kept⟩
    · exact .inr (.inr awake)
    · exact (ok.raised status before).imp_right (.imp_right kept)

/-- A thread's own writing does not matter to the direction that it reads. -/
theorem ChannelOk.withWriter {t : Thread φ T} {w : Writer} {c : Channel T} (ok : ChannelOk t w c)
    (own : Writer) : ChannelOk { t with writer := own } w c :=
  ⟨ok.wakeup, ok.raised⟩

/-- What the writer's load means for the direction it writes. -/
theorem ChannelOk.load {t : Thread φ T} {c : Channel T} (ok : ChannelOk t .load c)
    (window : c.status = true → t.reader ≠ .clear) :
    ChannelOk t (if c.status = false then .store else .idle) c := by
  by_cases status : c.status = false
  · rw [if_pos status]
    -- the writer goes on to store and send
    exact ⟨fun _ _ => .inl nofun, fun raised => by simp [status] at raised⟩
  · rw [if_neg status]
    have raised : c.status = true := by simpa using status
    -- the writer stops here and relies on the one who raised the status;
    -- for a reader at `clear` nobody has, and that case is excluded
    have promised : t.reader.settled = true → c.uipi = true ∨ t.Awake := fun settled =>
      (ok.raised raised settled).resolve_left nofun
    refine ⟨fun _ asleep => ?_, fun _ settled => .inr (promised settled)⟩
    exact .inr (promised (asleep.resolve_left (window raised)))

namespace System

variable {s t : System φ T} {side : Side}

structure Invariant (s : System φ T) : Prop where
  threads : s.ThreadsOk
  channels : ∀ side, ChannelOk (s.thread side) (s.thread side.other).writer (s.channel side)

theorem invariant_init : (init : System φ T).Invariant := by
  refine ⟨threadsOk_init, fun side => ⟨?_, nofun⟩⟩
  rintro - (clear | settled)
  · cases clear
  · cases settled

/-- The direction that `side` writes. -/
theorem Invariant.writes (inv : s.Invariant) (side : Side) :
    ChannelOk (s.thread side.other) (s.thread side).writer (s.channel side.other) := by
  have both := inv.channels side.other
  rwa [Side.other_other] at both

/-- A step of one thread, seen from both directions. -/
theorem Invariant.of_step {action : Action φ T} (inv : s.Invariant)
    (moved : s.step (side, action) = some t)
    (reads : ChannelOk (t.thread side) (s.thread side.other).writer (t.channel side))
    (writes : ChannelOk (s.thread side.other) (t.thread side).writer (t.channel side.other)) :
    t.Invariant := by
  obtain ⟨-, other⟩ := step_thread inv.threads moved
  refine ⟨step_threadsOk inv.threads moved, fun x => ?_⟩
  rcases side.eq_or_other x with rfl | rfl
  · exact other ▸ reads
  · rw [other, Side.other_other]
    exact writes

theorem step_invariant {a : Side × Action φ T} (inv : s.Invariant) (allowed : s.NoStaleLoad a)
    (moved : s.step a = some t) : t.Invariant := by
  obtain ⟨side, action⟩ := a
  have reads := inv.channels side
  have writes := inv.writes side
  cases action with
  | thread action =>
    obtain ⟨-, thread, ran, rfl⟩ := thread_ok moved
    have effect := Thread.run_localEffect (inv.threads side) ran
    refine inv.of_step moved ?_ ?_
    · simpa using reads.localEffect effect
    · simpa [effect.writer] using writes
  | interrupt =>
    obtain ⟨-, started, e, delayed, rfl⟩ := interrupt_ok inv.threads moved
    -- the flag is consumed, and the executor knows of it instead
    have awake := ((inv.threads side).delayWake started delayed).2
    refine inv.of_step moved ?_ (by simpa [Thread.setExecutor] using writes)
    simp only [setChannel_thread, setThread_thread, setChannel_channel]
    exact ⟨fun _ _ => .inr (.inr awake), fun _ _ => .inr (.inr awake)⟩
  | pop =>
    obtain ⟨-, ⟨item, items, -, rfl⟩ | ⟨empty, rfl⟩⟩ := pop_ok moved
    · refine inv.of_step moved ?_ (by simpa using writes)
      simp only [setChannel_thread, setThread_thread, setChannel_channel]
      exact ⟨fun _ asleep => by rcases asleep with clear | settled <;> contradiction,
        fun _ settled => by cases settled⟩
    · refine inv.of_step moved ?_ (by simpa using writes)
      simp only [setThread_thread, setThread_channel]
      -- the queue is empty when the reader turns to sleep
      exact ⟨fun occupied => absurd empty occupied, fun _ settled => by cases settled⟩
  | clear =>
    obtain ⟨atClear, rfl⟩ := clear_ok moved
    refine inv.of_step moved ?_ (by simpa using writes)
    simp only [setChannel_thread, setThread_thread, setChannel_channel]
    -- what was owed at `clear` is owed at `yield`, and the status is down
    exact ⟨fun items _ => reads.wakeup items (.inl atClear), fun status _ => by cases status⟩
  | push item =>
    obtain ⟨idle, -, items, -, rfl⟩ := push_ok moved
    refine inv.of_step moved (by simpa using reads.withWriter _) ?_
    simp only [setChannel_thread, setThread_thread, setChannel_channel]
    -- a writer that has pushed is no longer idle: it still owes its load
    refine ⟨fun _ _ => .inl (by rintro ⟨⟩), fun status settled => ?_⟩
    exact (writes.raised status settled).imp_left fun sending => by simp [idle] at sending
  | load =>
    obtain ⟨loading, rfl⟩ := load_ok moved
    rw [loading] at writes
    refine inv.of_step moved (by simpa using reads.withWriter _) ?_
    simpa using writes.load allowed
  | store =>
    obtain ⟨-, rfl⟩ := store_ok moved
    refine inv.of_step moved (by simpa using reads.withWriter _) ?_
    simp only [setChannel_thread, setThread_thread, setChannel_channel]
    exact ⟨fun _ _ => .inl (by rintro ⟨⟩), fun _ _ => .inl rfl⟩
  | send =>
    obtain ⟨-, rfl⟩ := send_ok moved
    refine inv.of_step moved (by simpa using reads.withWriter _) ?_
    simp only [setChannel_thread, setThread_thread, setChannel_channel]
    exact ⟨fun _ _ => .inr (.inl rfl), fun _ _ => .inr (.inl rfl)⟩

/-- In every interleaving in which no writer loads a raised status inside the window between
the reader's empty pop and its store, no wake-up is lost in either direction. -/
theorem no_lost_wakeup {s : System φ T} (run : Reaches step NoStaleLoad init s) (side : Side) :
    s.WakeupKept side := by
  intro items suspended
  have inv := Reaches.invariant Invariant invariant_init
    (fun _ _ _ inv allowed moved => step_invariant inv allowed moved) run
  exact (inv.channels side).wakeup items (.inr (by simp [suspended, Reader.settled]))

instance (e : Executor φ) (cid : CoroutineId) : Decidable (Awake e cid) :=
  inferInstanceAs (Decidable (_ ∨ ∃ p, p < maxPrioNum ∧ cid ∈ e.queue p))

instance (s : System φ T) (side : Side) : Decidable (s.Pending side) :=
  inferInstanceAs (Decidable (_ ∨ _ ∨ Awake _ _))

instance (s : System φ T) (side : Side) : Decidable (s.WakeupKept side) :=
  inferInstanceAs (Decidable (_ → _ → s.Pending side))

instance (s : System φ T) (a : Side × Action φ T) : Decidable (s.NoStaleLoad a) :=
  match a with
  | (_, .load) => inferInstanceAs (Decidable (_ → _))
  | (_, .thread _) | (_, .interrupt) | (_, .pop) | (_, .clear) | (_, .push _) | (_, .store)
  | (_, .send) => .isTrue trivial

/-- The server is started, finds no request, and sleeps; a first request wakes it, and it is
back at its pop. -/
private def oneRequest : List (Side × Action Unit IPCItem) :=
  [(.server, .thread (.start () 1)), (.server, .thread .fetch), (.server, .pop), (.server, .clear),
   (.server, .thread .yield), (.client, .push .new), (.client, .load), (.client, .store),
   (.client, .send), (.server, .interrupt), (.server, .thread .fetch), (.server, .pop),
   (.server, .thread .processed)]

/-- The second request is pushed and its status load made just after the server's empty pop:
the server goes to sleep over it. -/
theorem wakeup_lost : ¬ ∀ s : System Unit IPCItem, Reachable step init s → ∀ side, s.WakeupKept side := by
  intro kept
  obtain ⟨s, reached, lost⟩ := reachable_of_view step init
    (oneRequest ++ [(.server, .pop), (.client, .push .new), (.client, .load), (.server, .clear),
      (.server, .thread .yield)])
    (fun s => decide (s.WakeupKept .server)) (v := false) (by decide +kernel)
  exact of_decide_eq_false lost (kept s reached .server)

/-- The second request comes after the server's store, and is signalled. -/
theorem no_lost_wakeup_second_request :
    ∃ s : System Unit IPCItem, Reaches step NoStaleLoad init s ∧ (s.channel .server).items.items ≠ [] ∧
      (s.thread .server).reader = .suspended ∧ s.WakeupKept .server := by
  obtain ⟨s, run, seen⟩ := reaches_of_view step NoStaleLoad init
    (oneRequest ++ [(.server, .pop), (.server, .clear), (.client, .push .new), (.client, .load),
      (.client, .store), (.server, .thread .yield)])
    (fun s => ((s.channel .server).items.items, (s.thread .server).reader))
    (v := ([.new], .suspended)) (by decide +kernel)
  obtain ⟨items, suspended⟩ := Prod.mk.inj seen
  exact ⟨s, run, by simp [items], suspended, no_lost_wakeup run .server⟩

end System

end RootTask.Ipc
