import RootTask.Lib.SetOnce

/-!
# Setting up a channel between two threads

Before the first request, the two ends of a channel exchange what they need over one `AsyncArgs`:
the server puts down the notification for requests, the shared buffer and the client's thread, the
client registers itself as a sender, puts down the notification for replies, and the server
registers itself for that one. Each end spins, taking and releasing the lock of the `AsyncArgs`,
until the other has come far enough, and afterwards reads the fields with `unwrap` and without the
lock.

There are two such pairs: `async_ipc_test` with `async_helper_thread`, and
`create_c_s_ipc_channel` with `tcp_server_thread`. They differ in when the server puts down the
buffer and in the order of the client's reads.

The client may take steps here before the server has created its thread, which only adds runs.
-/
namespace RootTask.Ipc.Startup

open SetOnce Transition

/-- The fields of `AsyncArgs`; the flag `server_ready` counts as a field with one value. -/
inductive Field
  | reqNtfn | replyNtfn | serverSenderId | clientSenderId | childTcb | ipcNewBuffer | serverReady
deriving DecidableEq, Repr

/-- What is put into the fields. The kernel answers `register_sender` with an index for the
notification it is called with. -/
inductive Value
  | badgedNotification
  | badgedReplyNotification
  | newBuffer
  | childTcb
  | registered (ntfn : Value)
  | ready
deriving DecidableEq, Repr

inductive Party
  | server
  | client
deriving DecidableEq, Repr

instance : Fintype Party := ⟨{.server, .client}, fun party => by cases party <;> simp⟩

/-- The two pairs of threads. -/
inductive Pair
  | ipcTest
  | tcpTest
deriving DecidableEq, Repr

/-! ### The programs, reduced to their accesses to `AsyncArgs` -/

/-- The end of both servers: wait for the client, register for replies and say so. The index is
stored under the lock; the notification it belongs to was read before taking it. Then the
coroutine for requests reads the buffer when it is first polled, and the index with each reply. -/
def serveWhenReady : List (Op Field Value) :=
  [.await [.replyNtfn], .use .replyNtfn, .lock, .derive .serverSenderId .replyNtfn .registered,
    .set .serverReady .ready, .unlock, .use .ipcNewBuffer, .use .serverSenderId]

def asyncIpcTest : List (Op Field Value) :=
  [.lock, .set .reqNtfn .badgedNotification, .set .ipcNewBuffer .newBuffer, .unlock,
    .lock, .set .childTcb .childTcb, .unlock] ++ serveWhenReady

/-- Here the buffer is put down without the lock. -/
def createCSIpcChannel : List (Op Field Value) :=
  [.set .ipcNewBuffer .newBuffer, .lock, .set .reqNtfn .badgedNotification, .unlock,
    .lock, .set .childTcb .childTcb, .unlock] ++ serveWhenReady

/-- The end of both clients; the coroutine for replies reads the buffer when it is first
polled. -/
def callWhenReady : List (Op Field Value) :=
  [.use .reqNtfn, .lock, .derive .clientSenderId .reqNtfn .registered,
    .set .replyNtfn .badgedReplyNotification, .unlock, .await [.serverReady], .use .ipcNewBuffer]

def asyncHelperThread : List (Op Field Value) :=
  [.await [.childTcb, .reqNtfn, .ipcNewBuffer], .use .ipcNewBuffer, .use .childTcb] ++ callWhenReady

def tcpServerThread : List (Op Field Value) :=
  [.await [.childTcb, .reqNtfn, .ipcNewBuffer], .use .childTcb, .use .ipcNewBuffer] ++ callWhenReady

def programs : Pair → Programs Party Field Value
  | .ipcTest, .server => asyncIpcTest
  | .ipcTest, .client => asyncHelperThread
  | .tcpTest, .server => createCSIpcChannel
  | .tcpTest, .client => tcpServerThread

/-! ### Every interleaving -/

theorem programs_wellFormed (pair : Pair) : WellFormed (programs pair) := by
  cases pair <;> decide +kernel

/-- The server puts its fields down, the client answers, the server answers that. -/
def inTurns : List Party :=
  List.replicate 7 .server ++ List.replicate 8 .client ++ List.replicate 8 .server ++
    List.replicate 2 .client

theorem exists_done (pair : Pair) :
    ∃ d, Reachable (step (programs pair)) start d ∧ Done (programs pair) d ∧
      d.fields .clientSenderId = some (.registered .badgedNotification) ∧
      d.fields .serverSenderId = some (.registered .badgedReplyNotification) := by
  obtain ⟨d, run, seen⟩ := reachable_of_view (step (programs pair)) start inTurns
    (fun s => (s.pos .server, s.pos .client, s.fields .clientSenderId, s.fields .serverSenderId))
    (v := (15, 10, some (.registered .badgedNotification),
      some (.registered .badgedReplyNotification))) (by cases pair <;> decide +kernel)
  simp only [Prod.mk.injEq] at seen
  obtain ⟨server, client, clientId, serverId⟩ := seen
  refine ⟨d, run, fun i => ?_, clientId, serverId⟩
  cases i
  · rw [server]
    cases pair <;> rfl
  · rw [client]
    cases pair <;> rfl

/-- The server says it is ready after both ends have registered. -/
theorem registered_of_ready {pair : Pair} {s : State Party Field Value} (inv : Inv (programs pair) s)
    (ready : s.fields .serverReady ≠ none) :
    s.fields .serverSenderId ≠ none ∧ s.fields .clientSenderId ≠ none := by
  have wf := programs_wellFormed pair
  -- the flag is the server's step 11, and the client's answer its step 6
  have flagHere : (programs pair .server)[11]? = some (.set .serverReady .ready) := by
    cases pair <;> rfl
  have flag : 11 < s.pos .server := by
    by_contra notYet
    exact inv.no_writer wf ready (Nat.not_lt.mp notYet) flagHere (by simp [Op.writes])
  have reply : s.fields .replyNtfn ≠ none := by
    refine inv.ensured .server 7 (.await [.replyNtfn]) (by omega) ?_ _ (by simp [Op.ensures])
    cases pair <;> rfl
  have answerHere :
      (programs pair .client)[6]? = some (.set .replyNtfn .badgedReplyNotification) := by
    cases pair <;> rfl
  have answer : 6 < s.pos .client := by
    by_contra notYet
    exact inv.no_writer wf reply (Nat.not_lt.mp notYet) answerHere (by simp [Op.writes])
  constructor
  · refine inv.ensured .server 10 (.derive .serverSenderId .replyNtfn .registered) (by omega) ?_ _
      (by simp [Op.ensures])
    cases pair <;> rfl
  · refine inv.ensured .client 5 (.derive .clientSenderId .reqNtfn .registered) (by omega) ?_ _
      (by simp [Op.ensures])
    cases pair <;> rfl

/-- In every state that any interleaving of the two threads reaches: whatever either of them reads
next is there and will not be written again; whatever the fields hold is what every completed
start-up leaves in them; the client is told to go on only when both ends are registered; and both
threads can still come to their ends, each registered for the notification of the other. -/
theorem channel_established (pair : Pair) (s : State Party Field Value)
    (run : Reachable (step (programs pair)) start s) :
    (∀ party op f, (programs pair party)[s.pos party]? = some op → f ∈ op.reads →
      s.fields f ≠ none ∧
      ∀ other k op', s.pos other ≤ k → (programs pair other)[k]? = some op' → f ∉ op'.writes) ∧
    (s.fields .serverReady ≠ none →
      s.fields .serverSenderId ≠ none ∧ s.fields .clientSenderId ≠ none) ∧
    (∀ d, Reachable (step (programs pair)) start d → Done (programs pair) d →
      ∀ f v, s.fields f = some v → d.fields f = some v) ∧
    ∃ d, Reachable (step (programs pair)) s d ∧ Done (programs pair) d ∧
      d.fields .clientSenderId = some (.registered .badgedNotification) ∧
      d.fields .serverSenderId = some (.registered .badgedReplyNotification) := by
  have wf := programs_wellFormed pair
  have inv := inv_of_reachable wf run
  obtain ⟨d, finished, done, clientId, serverId⟩ := exists_done pair
  refine ⟨fun party op f here reads => ?_, registered_of_ready inv, ?_, ?_⟩
  · have there := inv.reads wf here reads
    exact ⟨there, fun other k op' later here' => inv.no_writer wf there later here'⟩
  · intro e finished' done' f v there
    exact fields_of_done wf finished' done' run there
  · obtain ⟨e, rest, done'⟩ := can_finish wf finished done run
    have finished' := run.trans rest
    exact ⟨e, rest, done', fields_of_done wf finished' done' finished clientId,
      fields_of_done wf finished' done' finished serverId⟩

/-- The client about to read the notification for requests, which is there. -/
theorem channel_established_client_reading :
    ∃ s, Reachable (step (programs .tcpTest)) start s ∧ s.pos .client = 3 ∧
      s.fields .reqNtfn ≠ none := by
  obtain ⟨s, run, seen⟩ := reachable_of_view (step (programs .tcpTest)) start
    (List.replicate 7 .server ++ List.replicate 3 .client) (fun s => s.pos .client) (v := 3)
    (by decide +kernel)
  refine ⟨s, run, seen, ?_⟩
  exact ((channel_established .tcpTest s run).1 .client (.use .reqNtfn) .reqNtfn
    (by rw [seen]; rfl) (by simp [Op.reads])).1

end RootTask.Ipc.Startup
