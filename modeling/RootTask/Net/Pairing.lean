import RootTask.Net.Coroutines

/-!
# Waiting coroutines and their sockets

A SYN wakes the accept coroutine that has waited longest on the port; the coroutine then
takes the front of `syn_queue`. `PairingOk` says which socket that is: on every port,
`syn_queue` lists the sockets of the coroutines that were woken and have not accepted yet,
in the order in which the executor will run them, followed by those of the coroutines that
are still blocked. Nothing in it depends on the peers, so it holds in every run
(`step_paired`).
-/
namespace RootTask.Net

open RootTask.Runtime RootTask.Transition

/-- An accept coroutine that has registered its socket on the port. -/
def Point.waitsOn (p : Nat) : Point → Bool
  | .acceptYield _ port _ _ => port == p
  | .accepting _ port _ _ => port == p
  | _ => false

/-- The socket that an accept coroutine has registered. -/
def Point.handler : Point → SocketHandle
  | .acceptYield _ _ _ handler => handler
  | .accepting _ _ _ handler => handler
  | _ => default

@[simp] theorem ListenTable.entry_update (table : ListenTable) (p q : Nat) (en : ListenTableEntry) :
    ListenTable.entry (Function.update table p (some en)) q = if q = p then en else table.entry q := by
  unfold ListenTable.entry
  by_cases same : q = p
  · simp [same]
  · simp [same]

theorem ListenTable.entry_of_some {table : ListenTable} {p : Nat} {en : ListenTableEntry}
    (found : table p = some en) : table.entry p = en := by
  simp [ListenTable.entry, found]

/-- The accept coroutines that are polled or queued, in the order in which they run. All of
them have priority 2. -/
def lineup (polling : Option CoroutineId) (queue : List CoroutineId) (point : Nat → Point) :
    List CoroutineId :=
  (polling.toList ++ queue).filter fun c => (point c.val).acceptPhase

/-- Those of them that have a socket on the port. -/
def woken (line : List CoroutineId) (point : Nat → Point) (p : Nat) : List CoroutineId :=
  line.filter fun c => (point c.val).waitsOn p

structure PairingOk (polling : Option CoroutineId) (queue : List CoroutineId) (point : Nat → Point)
    (table : ListenTable) : Prop where
  plain : ∀ p en, table p = some en → en.listenAddr = none ∧ en.blockEp = []
  pairs : ∀ p, (table.entry p).synQueue =
    (woken (lineup polling queue point) point p ++ (table.entry p).blockCids).map
      fun c => (point c.val).handler
  line_nodup : (lineup polling queue point).Nodup
  block_nodup : ∀ p, (table.entry p).blockCids.Nodup
  blocked : ∀ p, ∀ c ∈ (table.entry p).blockCids, c ∉ lineup polling queue point ∧
    ∃ cid serial h, point c.val = .acceptYield cid p serial h
  accepting : ∀ i cid p serial h, point i = .accepting cid p serial h → polling = some ⟨i⟩

theorem acceptPhase_of_mem {polling : Option CoroutineId} {queue : List CoroutineId}
    {point : Nat → Point} {c : CoroutineId} (member : c ∈ lineup polling queue point) :
    (point c.val).acceptPhase = true :=
  (List.mem_filter.mp member).2

theorem acceptPhase_of_waitsOn {p : Nat} {point : Point} (waits : point.waitsOn p = true) :
    point.acceptPhase = true := by
  cases point <;> simp_all [Point.waitsOn, Point.acceptPhase]

theorem lineup_append (polling : Option CoroutineId) (queue added : List CoroutineId)
    (point : Nat → Point) : lineup polling (queue ++ added) point =
      lineup polling queue point ++ added.filter fun c => (point c.val).acceptPhase := by
  simp [lineup, List.filter_append]

theorem lineup_some (c : CoroutineId) (queue : List CoroutineId) (point : Nat → Point) :
    lineup (some c) queue point =
      (if (point c.val).acceptPhase then [c] else []) ++ lineup none queue point := by
  unfold lineup
  rw [List.filter_append]
  simp [List.filter_cons]

namespace PairingOk

variable {polling polling' : Option CoroutineId} {queue queue' : List CoroutineId}
  {point point' : Nat → Point} {table : ListenTable}

/-- Only the order of the accept coroutines and their sockets matter. -/
theorem of_similar (ok : PairingOk polling queue point table)
    (line : lineup polling' queue' point' = lineup polling queue point)
    (lined : ∀ c ∈ lineup polling queue point,
      (∀ p, (point' c.val).waitsOn p = (point c.val).waitsOn p) ∧
        (point' c.val).handler = (point c.val).handler)
    (still : ∀ p, ∀ c ∈ (table.entry p).blockCids, point' c.val = point c.val)
    (accepting : ∀ i cid p serial h, point' i = .accepting cid p serial h → polling' = some ⟨i⟩) :
    PairingOk polling' queue' point' table := by
  -- whoever is in line waits on the same port as before
  have sameWoken : ∀ p, woken (lineup polling' queue' point') point' p =
      woken (lineup polling queue point) point p := by
    intro p
    unfold woken
    rw [line]
    apply List.filter_congr
    intro c member
    exact (lined c member).1 p
  constructor
  case plain => exact ok.plain
  case pairs =>
    intro p
    rw [ok.pairs p, sameWoken]
    apply List.map_congr_left
    intro c member
    rcases List.mem_append.mp member with inLine | isBlocked
    · exact (lined c (List.mem_filter.mp inLine).1).2.symm
    · rw [still p c isBlocked]
  case line_nodup => rw [line]; exact ok.line_nodup
  case block_nodup => exact ok.block_nodup
  case blocked =>
    intro p c member
    rw [line, still p c member]
    exact ok.blocked p c member
  case accepting => exact accepting

theorem of_same (ok : PairingOk polling queue point table)
    (line : lineup polling' queue' point' = lineup polling queue point)
    (same : ∀ i, (point i).acceptPhase = true → point' i = point i)
    (accepting : ∀ i cid p serial h, point' i = .accepting cid p serial h → polling' = some ⟨i⟩) :
    PairingOk polling' queue' point' table := by
  apply ok.of_similar line _ _ accepting
  · intro c member
    rw [same _ (acceptPhase_of_mem member)]
    exact ⟨fun _ => rfl, rfl⟩
  · intro p c member
    obtain ⟨cid, serial, h, at_⟩ := (ok.blocked p c member).2
    exact same _ (by rw [at_]; rfl)

/-- A coroutine outside the accept phase moves on, and perhaps stops being polled. -/
theorem move (ok : PairingOk polling queue point table) {i : Nat} {p : Point}
    (before : (point i).acceptPhase = false) (after : p.acceptPhase = false)
    (polls : polling' = polling ∨ polling' = none ∧ polling = some ⟨i⟩) :
    PairingOk polling' queue (Function.update point i p) table := by
  have phase : ∀ c : CoroutineId, (Function.update point i p c.val).acceptPhase =
      (point c.val).acceptPhase := by
    intro c
    by_cases here : c.val = i
    · rw [here, Function.update_self, after, before]
    · rw [Function.update_of_ne here]
  apply ok.of_same
  · unfold lineup
    simp only [phase]
    rcases polls with rfl | ⟨rfl, rfl⟩
    · rfl
    · simp [before]
  · intro j waits
    have different : j ≠ i := by
      rintro rfl
      rw [before] at waits
      cases waits
    exact Function.update_of_ne different ..
  · intro j cid port serial h at_
    by_cases here : j = i
    · subst here
      rw [Function.update_self] at at_
      rw [at_] at after
      cases after
    · rw [Function.update_of_ne here] at at_
      have polled := ok.accepting j cid port serial h at_
      rcases polls with rfl | ⟨rfl, other⟩
      · exact polled
      · rw [other, Option.some.injEq, CoroutineId.mk.injEq] at polled
        exact absurd polled.symm here

/-- Wake-ups of other coroutines. -/
theorem wakes (ok : PairingOk polling queue point table) {added : List CoroutineId}
    (others : ∀ c ∈ added, (point c.val).acceptPhase = false) :
    PairingOk polling (queue ++ added) point table := by
  apply ok.of_same
  · rw [lineup_append, List.filter_eq_nil_iff.mpr, List.append_nil]
    intro c member
    simp [others c member]
  · exact fun _ _ => rfl
  · exact ok.accepting

/-- The front of the queue of accept coroutines is polled. -/
theorem popAccept {c : CoroutineId} (ok : PairingOk none (c :: queue) point table) :
    PairingOk (some c) queue point table := by
  apply ok.of_same
  · rfl
  · exact fun _ _ => rfl
  · intro i cid p serial h at_
    cases ok.accepting i cid p serial h at_

/-- Another coroutine is polled. -/
theorem popOther {c : CoroutineId} (ok : PairingOk none queue point table)
    (other : (point c.val).acceptPhase = false) : PairingOk (some c) queue point table := by
  apply ok.of_same
  · simp [lineup, other]
  · exact fun _ _ => rfl
  · intro i cid p serial h at_
    cases ok.accepting i cid p serial h at_

/-- A new accept coroutine joins the line. -/
theorem born (ok : PairingOk polling queue point table) {c : CoroutineId} {body : Body}
    (waits : (Point.fresh body).acceptPhase = true) (idle : (point c.val).acceptPhase = false)
    (absent : c ∉ queue) (unpolled : polling ≠ some c) :
    PairingOk polling (queue ++ [c]) (Function.update point c.val (.fresh body)) table := by
  have others : ∀ d : CoroutineId, d ≠ c → Function.update point c.val (.fresh body) d.val =
      point d.val := by
    intro d different
    exact Function.update_of_ne (fun same => different (CoroutineId.ext same)) ..
  have line : lineup polling (queue ++ [c]) (Function.update point c.val (.fresh body)) =
      lineup polling queue point ++ [c] := by
    rw [lineup_append]
    congr 1
    · apply List.filter_congr
      intro d member
      rw [others d]
      rintro rfl
      rcases List.mem_append.mp member with isPolled | isQueued
      · exact unpolled (by simpa using isPolled)
      · exact absent isQueued
    · simp [waits]
  -- the id is new: its coroutine is neither in line nor blocked
  have notLined : c ∉ lineup polling queue point := by
    intro member
    rw [acceptPhase_of_mem member] at idle
    cases idle
  have notBlocked : ∀ p, c ∉ (table.entry p).blockCids := by
    intro p member
    obtain ⟨cid, serial, h, at_⟩ := (ok.blocked p c member).2
    rw [at_] at idle
    cases idle
  have lineOthers : ∀ d ∈ lineup polling queue point, d ≠ c := fun d member same =>
    notLined (same ▸ member)
  have sameWoken : ∀ p, woken (lineup polling queue point ++ [c])
      (Function.update point c.val (.fresh body)) p =
        woken (lineup polling queue point) point p := by
    intro p
    unfold woken
    rw [List.filter_append]
    have first : ([c].filter fun d =>
        (Function.update point c.val (.fresh body) d.val).waitsOn p) = [] := by
      simp [Point.waitsOn]
    rw [first, List.append_nil]
    apply List.filter_congr
    intro d member
    rw [others d (lineOthers d member)]
  constructor
  case plain => exact ok.plain
  case pairs =>
    intro p
    rw [line, sameWoken, ok.pairs p]
    apply List.map_congr_left
    intro d member
    rcases List.mem_append.mp member with inLine | isBlocked
    · rw [others d (lineOthers d (List.mem_filter.mp inLine).1)]
    · rw [others d]
      rintro rfl
      exact notBlocked p isBlocked
  case line_nodup =>
    rw [line, List.nodup_append]
    refine ⟨ok.line_nodup, List.nodup_singleton c, ?_⟩
    intro d member e single
    rw [List.mem_singleton.mp single]
    exact lineOthers d member
  case block_nodup => exact ok.block_nodup
  case blocked =>
    intro p d member
    have different : d ≠ c := by
      rintro rfl
      exact notBlocked p member
    obtain ⟨absent', at_⟩ := ok.blocked p d member
    rw [line, others d different]
    refine ⟨?_, at_⟩
    simp [absent', different]
  case accepting =>
    intro i cid p serial h at_
    by_cases here : i = c.val
    · rw [here, Function.update_self] at at_
      cases at_
    · rw [Function.update_of_ne here] at at_
      exact ok.accepting i cid p serial h at_

/-- The polled accept coroutine is the front of the line and not queued again. -/
theorem line_polled {self : CoroutineId} (ok : PairingOk (some self) queue point table)
    (waits : (point self.val).acceptPhase = true) :
    lineup (some self) queue point = self :: lineup none queue point ∧ self ∉ queue := by
  have line : lineup (some self) queue point = self :: lineup none queue point := by
    simp [lineup_some, waits]
  refine ⟨line, fun member => ?_⟩
  have nodup := ok.line_nodup
  rw [line, List.nodup_cons] at nodup
  exact nodup.1 (List.mem_filter.mpr ⟨by simpa using member, waits⟩)

/-- A coroutine that moves does not change where the coroutines of a list are that it is not in. -/
theorem point_update {line : List CoroutineId} {self c : CoroutineId} {p : Point}
    (absent : self ∉ line) (member : c ∈ line) :
    Function.update point self.val p c.val = point c.val := by
  refine Function.update_of_ne (fun same => ?_) ..
  obtain rfl := CoroutineId.ext same
  exact absent member

/-- What changes at a coroutine that is not queued does not change the order of the others. -/
theorem lineup_update {self : CoroutineId} {p : Point} (absent : self ∉ queue) :
    lineup none queue (Function.update point self.val p) = lineup none queue point := by
  apply List.filter_congr
  intro d member
  rw [point_update absent (by simpa using member)]

theorem woken_update {line : List CoroutineId} {self : CoroutineId} {p : Point} {port : Nat}
    (absent : self ∉ line) :
    woken line (Function.update point self.val p) port = woken line point port := by
  apply List.filter_congr
  intro d member
  rw [point_update absent member]

theorem handlers_update {line : List CoroutineId} {self : CoroutineId} {p : Point}
    (absent : self ∉ line) :
    (line.map fun c => (Function.update point self.val p c.val).handler) =
      line.map fun c => (point c.val).handler := by
  apply List.map_congr_left
  intro d member
  rw [point_update absent member]

/-- A polled accept coroutine is blocked on no port. -/
theorem polled_notBlocked {self : CoroutineId} (ok : PairingOk (some self) queue point table)
    (waits : (point self.val).acceptPhase = true) (p : Nat) :
    self ∉ (table.entry p).blockCids := by
  intro member
  apply (ok.blocked p self member).1
  rw [(ok.line_polled waits).1]
  exact List.mem_cons_self

/-- No entry of the asynchronous server has an address or endpoints. -/
theorem plain_update {port : Nat} {en : ListenTableEntry} (ok : PairingOk polling queue point table)
    (plain : en.listenAddr = none ∧ en.blockEp = []) (p : Nat) (en' : ListenTableEntry)
    (found : Function.update table port (some en) p = some en') :
    en'.listenAddr = none ∧ en'.blockEp = [] := by
  by_cases here : p = port
  · subst here
    obtain rfl : en = en' := by simpa using found
    exact plain
  · rw [Function.update_of_ne here] at found
    exact ok.plain p en' found

theorem entry_plain (ok : PairingOk polling queue point table) (port : Nat) :
    (table.entry port).listenAddr = none ∧ (table.entry port).blockEp = [] := by
  cases existing : table port with
  | none => simp [ListenTable.entry, existing, ListenTableEntry.new]
  | some old => simpa [ListenTable.entry, existing] using ok.plain port old existing

/-- The coroutine that listens blocks behind all others on its port. -/
theorem listen {self cid : CoroutineId} {port serial : Nat} {handler : SocketHandle}
    (ok : PairingOk (some self) queue point table)
    (at_ : point self.val = .fresh (.tcpAccept cid port serial)) :
    PairingOk none queue (Function.update point self.val (.acceptYield cid port serial handler))
      (Function.update table port (some { table.entry port with
        synQueue := (table.entry port).synQueue ++ [handler]
        blockCids := (table.entry port).blockCids ++ [self] })) := by
  have waits : (point self.val).acceptPhase = true := by rw [at_]; rfl
  obtain ⟨line, absent⟩ := ok.line_polled waits
  have nodup := ok.line_nodup
  rw [line, List.nodup_cons] at nodup
  have notBlocked := ok.polled_notBlocked waits
  have sameWoken : ∀ p, woken (lineup (some self) queue point) point p =
      woken (lineup none queue point) point p := by
    intro p
    rw [line]
    simp [woken, at_, Point.waitsOn]
  constructor
  case plain => exact ok.plain_update (ok.entry_plain port)
  case pairs =>
    intro p
    rw [lineup_update absent, woken_update nodup.1, ListenTable.entry_update]
    have front : self ∉ woken (lineup none queue point) point p :=
      fun member => nodup.1 (List.mem_filter.mp member).1
    by_cases here : p = port
    · subst here
      rw [if_pos rfl]
      simp only
      rw [ok.pairs p, sameWoken]
      -- socket and coroutine are pushed to the ends of their queues together
      simp only [List.map_append, handlers_update front, handlers_update (notBlocked p)]
      simp [Point.handler]
    · rw [if_neg here, ok.pairs p, sameWoken, handlers_update (by simp [front, notBlocked p])]
  case line_nodup => rw [lineup_update absent]; exact nodup.2
  case block_nodup =>
    intro p
    rw [ListenTable.entry_update]
    split
    next here =>
      simp only
      rw [List.nodup_append]
      refine ⟨ok.block_nodup port, List.nodup_singleton _, ?_⟩
      rintro a old b new rfl
      rw [List.mem_singleton.mp new] at old
      exact notBlocked port old
    · exact ok.block_nodup p
  case blocked =>
    intro p c member
    rw [ListenTable.entry_update] at member
    rw [lineup_update absent]
    have old : c ∈ (table.entry p).blockCids → c ∉ lineup none queue point ∧
        ∃ cid' serial' h, Function.update point self.val (.acceptYield cid port serial handler)
          c.val = .acceptYield cid' p serial' h := by
      intro earlier
      obtain ⟨outside, cid', serial', h, point_⟩ := ok.blocked p c earlier
      rw [line] at outside
      rw [point_update (notBlocked p) earlier]
      exact ⟨fun inLine => outside (List.mem_cons_of_mem _ inLine), cid', serial', h, point_⟩
    split at member
    next here =>
      subst here
      rcases List.mem_append.mp member with earlier | isSelf
      · exact old earlier
      · rw [List.mem_singleton.mp isSelf]
        exact ⟨nodup.1, cid, serial, handler, Function.update_self ..⟩
    · exact old member
  case accepting =>
    intro i cid' p serial' h point_
    by_cases here : i = self.val
    · rw [here, Function.update_self] at point_
      cases point_
    · rw [Function.update_of_ne here] at point_
      have polled := ok.accepting i cid' p serial' h point_
      exact absurd (congrArg CoroutineId.val (Option.some.inj polled)).symm here

/-- The coroutine that resumes keeps its place and its socket. -/
theorem resume {self cid : CoroutineId} {port serial : Nat} {handler : SocketHandle}
    (ok : PairingOk (some self) queue point table)
    (at_ : point self.val = .acceptYield cid port serial handler) :
    PairingOk (some self) queue
      (Function.update point self.val (.accepting cid port serial handler)) table := by
  have waits : (point self.val).acceptPhase = true := by rw [at_]; rfl
  obtain ⟨line, absent⟩ := ok.line_polled waits
  apply ok.of_similar
  · rw [line, lineup_some, lineup_update absent]
    simp [Point.acceptPhase]
  · intro c member
    by_cases here : c.val = self.val
    · rw [here, Function.update_self, at_]
      exact ⟨fun _ => rfl, rfl⟩
    · rw [Function.update_of_ne here]
      exact ⟨fun _ => rfl, rfl⟩
  · intro p c member
    exact point_update (ok.polled_notBlocked waits p) member
  · intro i cid' p serial' h point_
    by_cases here : i = self.val
    · rw [here]
    · rw [Function.update_of_ne here] at point_
      exact ok.accepting i cid' p serial' h point_

theorem front {self : CoroutineId} (ok : PairingOk (some self) queue point table) (port : Nat)
    (waits : (point self.val).waitsOn port = true) :
    (table.entry port).synQueue = (point self.val).handler ::
      ((woken (lineup none queue point) point port ++ (table.entry port).blockCids).map
        fun c => (point c.val).handler) := by
  obtain ⟨line, -⟩ := ok.line_polled (acceptPhase_of_waitsOn waits)
  rw [ok.pairs port, line]
  simp [woken, waits]

theorem accept {self cid : CoroutineId} {port serial : Nat} {handler : SocketHandle}
    {en : ListenTableEntry} {handle : SocketHandle} {rest : List SocketHandle}
    (ok : PairingOk (some self) queue point table)
    (at_ : point self.val = .accepting cid port serial handler) (found : table port = some en)
    (shape : en.synQueue = handle :: rest) :
    PairingOk (some self) queue (Function.update point self.val (.recvLoop none))
      (Function.update table port (some { en with synQueue := rest })) := by
  have waits : (point self.val).acceptPhase = true := by rw [at_]; rfl
  obtain ⟨line, absent⟩ := ok.line_polled waits
  have nodup := ok.line_nodup
  rw [line, List.nodup_cons] at nodup
  have isEntry := ListenTable.entry_of_some found
  have queueFront := ok.front port (by simp [at_, Point.waitsOn])
  rw [isEntry, shape] at queueFront
  have notBlocked := ok.polled_notBlocked waits
  -- the coroutine leaves the line, the others stay in order
  have lineAfter : lineup (some self) queue (Function.update point self.val (.recvLoop none)) =
      lineup none queue point := by
    rw [lineup_some, lineup_update absent]
    simp [Point.acceptPhase]
  have blockCids : ∀ p, (ListenTable.entry (Function.update table port
      (some { en with synQueue := rest })) p).blockCids = (table.entry p).blockCids := by
    intro p
    rw [ListenTable.entry_update]
    split
    next here => rw [here, isEntry]
    · rfl
  constructor
  case plain => exact ok.plain_update (ok.plain port en found)
  case pairs =>
    intro p
    have inLine : self ∉ woken (lineup none queue point) point p :=
      fun member => nodup.1 (List.mem_filter.mp member).1
    rw [lineAfter, woken_update nodup.1, blockCids,
      handlers_update (by simp [inLine, notBlocked p]), ListenTable.entry_update]
    split
    next here =>
      subst here
      rw [isEntry]
      -- the front of `syn_queue` goes with the coroutine at the front of the line
      exact (List.cons.inj queueFront).2
    next elsewhere =>
      rw [ok.pairs p, line]
      -- on the other ports the coroutine had no socket
      simp [woken, at_, Point.waitsOn, Ne.symm elsewhere]
  case line_nodup => rw [lineAfter]; exact nodup.2
  case block_nodup =>
    intro p
    rw [blockCids]
    exact ok.block_nodup p
  case blocked =>
    intro p c member
    rw [blockCids] at member
    obtain ⟨outside, cid', serial', h, point_⟩ := ok.blocked p c member
    rw [line] at outside
    rw [lineAfter, point_update (notBlocked p) member]
    exact ⟨fun inLine => outside (List.mem_cons_of_mem _ inLine), cid', serial', h, point_⟩
  case accepting =>
    intro i cid' p serial' h point_
    by_cases here : i = self.val
    · rw [here, Function.update_self] at point_
      cases point_
    · rw [Function.update_of_ne here] at point_
      exact ok.accepting i cid' p serial' h point_

/-- A SYN moves the coroutine that has waited longest to the end of the line. -/
theorem wakeBlocked {c : CoroutineId} {rest : List CoroutineId} {port : Nat}
    {en : ListenTableEntry} (ok : PairingOk polling queue point table)
    (found : table port = some en) (shape : en.blockCids = c :: rest) :
    PairingOk polling (queue ++ [c]) point
      (Function.update table port (some { en with blockCids := rest })) := by
  have isEntry := ListenTable.entry_of_some found
  have isBlocked : c ∈ (table.entry port).blockCids := by
    rw [isEntry, shape]
    exact List.mem_cons_self
  obtain ⟨outside, cid, serial, h, at_⟩ := ok.blocked port c isBlocked
  have nodup := ok.block_nodup port
  rw [isEntry, shape, List.nodup_cons] at nodup
  have line : lineup polling (queue ++ [c]) point = lineup polling queue point ++ [c] := by
    rw [lineup_append]
    simp [at_, Point.acceptPhase]
  constructor
  case plain => exact ok.plain_update (ok.plain port en found)
  case pairs =>
    intro p
    rw [line, ListenTable.entry_update]
    split
    next here =>
      subst here
      -- `syn_queue` is untouched: the front of the blocked becomes the end of the woken
      have before := ok.pairs p
      rw [isEntry, shape] at before
      simp only
      rw [before]
      simp [woken, at_, Point.waitsOn]
    next elsewhere =>
      rw [ok.pairs p]
      simp [woken, at_, Point.waitsOn, Ne.symm elsewhere]
  case line_nodup =>
    rw [line, List.nodup_append]
    refine ⟨ok.line_nodup, List.nodup_singleton c, ?_⟩
    rintro d inLine e single rfl
    rw [List.mem_singleton.mp single] at inLine
    exact outside inLine
  case block_nodup =>
    intro p
    rw [ListenTable.entry_update]
    split
    · exact nodup.2
    · exact ok.block_nodup p
  case blocked =>
    intro p d member
    rw [ListenTable.entry_update] at member
    have still : d ∈ (table.entry p).blockCids ∧ d ≠ c := by
      split at member
      next here =>
        subst here
        rw [isEntry, shape]
        refine ⟨List.mem_cons_of_mem _ member, ?_⟩
        rintro rfl
        exact nodup.1 member
      next elsewhere =>
        refine ⟨member, ?_⟩
        rintro rfl
        -- a coroutine is blocked on one port only
        obtain ⟨_, _, _, other⟩ := (ok.blocked p d member).2
        rw [at_] at other
        exact elsewhere (by cases other; rfl)
    obtain ⟨absent, point_⟩ := ok.blocked p d still.1
    rw [line]
    exact ⟨by simp [absent, still.2], point_⟩
  case accepting => exact ok.accepting

end PairingOk

namespace AsyncServer

variable {σ F : Type} (stack : Smoltcp σ F)

/-- The pairing, at a state of the server. -/
abbrev Paired (s : AsyncServer σ) : Prop :=
  PairingOk s.polling (s.executor.queue 2) s.point s.net.listenTable

theorem paired_init : (init stack).Paired := by
  have queue : (init stack).executor.queue 2 = [] := RingBuffer.toList_new
  have line : lineup (init stack).polling ((init stack).executor.queue 2) (init stack).point = [] := by
    rw [queue]
    rfl
  have entry : ∀ p, ListenTable.entry (init stack).net.listenTable p = .new none := fun _ => rfl
  constructor
  case plain => exact nofun
  case pairs => intro p; rw [line, entry]; rfl
  case line_nodup => rw [line]; exact List.nodup_nil
  case block_nodup => intro p; rw [entry]; exact List.nodup_nil
  case blocked => intro p c member; rw [entry] at member; cases member
  case accepting => exact nofun

variable {stack} {s t : AsyncServer σ} {self : CoroutineId}

/-- A polled coroutine that waits on a port finds its own socket at the front. -/
theorem Paired.front (paired : s.Paired) (polls : s.polling = some self) (port : Nat)
    (waits : (s.point self.val).waitsOn port = true) :
    (s.net.listenTable.entry port).synQueue = (s.point self.val).handler ::
      ((woken (lineup none (s.executor.queue 2) s.point) s.point port ++
        (s.net.listenTable.entry port).blockCids).map fun c => (s.point c.val).handler) := by
  have polled : PairingOk (some self) (s.executor.queue 2) s.point s.net.listenTable :=
    polls ▸ paired
  exact polled.front port waits

theorem Wakes.paired {e : Executor Body} {which : CoroutineId → Prop}
    (wakes : Wakes s.executor e which) (paired : s.Paired)
    (others : ∀ c, which c → (s.point c.val).acceptPhase = false) : (s.setExecutor e).Paired := by
  obtain ⟨added, appended, addedOk⟩ := wakes.appended 2
  change PairingOk _ (e.queue 2) _ _
  rw [appended]
  exact paired.wakes fun c member => others c (addedOk c member).1

theorem Iterated.paired (iterated : s.Iterated self t) (ok : s.Ok) (paired : s.Paired)
    (polls : s.polling = some self) (outside : (s.point self.val).acceptPhase = false) :
    t.Paired := by
  have others : ∀ c, s.Rescheduled self c → (s.point c.val).acceptPhase = false := by
    -- delayed wake-ups are for the poller and the request loop, never for accept coroutines
    rintro c (delayed | rfl)
    · exact (ok.delayed c.val delayed).2
    · exact outside
  cases iterated with
  | again e n wakes => exact (wakes.paired paired others).move outside rfl (.inl rfl)
  | switched e wakes => exact (wakes.paired paired others).move outside rfl (.inr ⟨rfl, polls⟩)

/-- A spawn appends to the queue of its priority only. -/
theorem spawn_queue {r r' : RuntimeState Body} {body : Body} {prio : Nat} {cid : CoroutineId}
    (spawned : r.spawn body prio = .ok (cid, r')) : r'.executor.queue =
      Function.update r.executor.queue prio (r.executor.queue prio ++ [cid]) := by
  obtain ⟨-, -, e, grown, executor⟩ := RuntimeState.spawn_ok spawned
  rw [executor]
  exact grown.queue_eq

theorem Handled.paired {request : Request} (handled : Handled stack s request t) (ok : s.Ok)
    (paired : s.Paired) : t.Paired := by
  cases handled with
  | poll e woken =>
    apply (Wakes.of_wake woken).paired paired
    rintro c rfl
    exact (ok.poller_ok (Executor.wake_ok woken).1).2
  | listen cid runtime body isAccept spawned =>
    have unborn := ok.table.fresh spawned
    change PairingOk _ (runtime.executor.queue 2) (Function.update s.point cid.val (.fresh body)) _
    rw [spawn_queue spawned, Function.update_self]
    apply paired.born
    · rw [isAccept]
      rfl
    · rw [(ok.dead cid.val unborn).1]
      rfl
    · intro member
      obtain ⟨task, live, -⟩ := ok.queued 2 cid member
      exact absurd (unborn.symm.trans live) nofun
    · intro polls
      exact (ok.polled cid polls).2 unborn
  | dropSend _ _ => exact paired
  | recv size s₁ _ _ received replied =>
    obtain ⟨items, -, rfl⟩ := writeReply_ok replied
    obtain ⟨len, bytes, sockets, -, rfl⟩ := recvInto_ok stack received
    exact paired
  | dropRecv _ _ => exact paired
  | handOver _ _ _ handed =>
    obtain ⟨cid, e, filed, woken, rfl⟩ := handOver_ok handed
    apply (Wakes.of_wake woken).paired paired
    rintro c rfl
    exact (ok.accepted _ c filed).2

theorem Ran.paired (ran : Ran stack s self t) (ok : s.Ok) (paired : s.Paired)
    (polls : s.polling = some self) : t.Paired := by
  obtain ⟨current, live⟩ := ok.polled self polls
  have polled : PairingOk (some self) (s.executor.queue 2) s.point s.net.listenTable := polls ▸ paired
  cases ran with
  | jump p jumps =>
    apply paired.move _ _ (.inl rfl)
    · generalize s.point self.val = q at jumps
      cases jumps <;> rfl
    · generalize s.point self.val = q at jumps
      cases jumps <;> rfl
  | resume next value lib resumes taken =>
    obtain ⟨cid, isCurrent, rfl, rfl⟩ := AsyncState.takeValue_ok taken
    by_cases outside : (s.point self.val).acceptPhase = false
    · apply paired.move outside _ (.inl rfl)
      generalize s.point self.val = q at resumes outside
      cases resumes <;> first | rfl | cases outside
    · -- only the yield of the accept coroutine is inside the accept phase
      generalize at_ : s.point self.val = q at resumes outside
      cases resumes <;> try exact absurd rfl outside
      change PairingOk s.polling _ _ _
      rw [polls]
      exact polled.resume at_
  | endPoll at_ => exact paired.move (by rw [at_]; rfl) rfl (.inr ⟨rfl, polls⟩)
  | noItem cnt at_ empty => exact paired.move (by rw [at_]; rfl) rfl (.inr ⟨rfl, polls⟩)
  | handle cnt request items s₁ _ at_ popped handled iterated =>
    obtain ⟨ok₁, polling, keeps⟩ := handled.ok ok
    have point := (keeps self.val live).2
    apply iterated.paired ok₁ (handled.paired ok paired) (polling.trans polls)
    rw [point]
    change (s.point self.val).acceptPhase = false
    rw [at_]
    rfl
  | send cnt size request items sockets _ at_ popped sending =>
    obtain ⟨-, -, -, -, rfl⟩ := sending
    exact paired.move (by rw [at_]; rfl) rfl (.inl rfl)
  | sendReply cnt size request s₁ _ at_ replied iterated =>
    obtain ⟨items, -, rfl⟩ := writeReply_ok replied
    apply iterated.paired ok paired polls
    change (s.point self.val).acceptPhase = false
    rw [at_]
    rfl
  | listen cid port serial handler sockets table at_ opened registered =>
    obtain ⟨-, rfl⟩ := ListenTable.register_ok registered
    exact polled.listen at_
  | accept cid port serial handler handle tuple net s₁ at_ accepted replied =>
    obtain ⟨items, -, rfl⟩ := writeReply_ok replied
    obtain ⟨en, rest, found, shape, -, rfl⟩ := NetState.accept_ok stack accepted
    change PairingOk s.polling _ _ _
    rw [polls]
    exact polled.accept at_ found shape
  | wait at_ => exact paired.move (by rw [at_]; rfl) rfl (.inr ⟨rfl, polls⟩)
  | recvReply request size s₁ s₂ at_ received replied =>
    obtain ⟨items, -, rfl⟩ := writeReply_ok replied
    obtain ⟨len, bytes, sockets, -, rfl⟩ := recvInto_ok stack received
    exact paired.move (by rw [at_]; rfl) rfl (.inl rfl)
  | recvFailed request at_ can failed => exact paired.move (by rw [at_]; rfl) rfl (.inl rfl)
  | recvBusy request e at_ woken =>
    have outside : (s.point self.val).acceptPhase = false := by rw [at_]; rfl
    apply PairingOk.move _ outside rfl (.inr ⟨rfl, polls⟩)
    apply (Wakes.of_wake woken).paired paired
    rintro c rfl
    exact outside

theorem Fetched.paired (fetched : Fetched s t) (ok : s.Ok) (paired : s.Paired)
    (idle : s.polling = none) : t.Paired := by
  have delayed : ∀ c : CoroutineId, s.executor.delayWakeCids.getLsbD c.val = true →
      (s.point c.val).acceptPhase = false := fun c set => (ok.delayed c.val set).2
  cases fetched with
  | nothing e wakes =>
    have flushed := wakes.paired paired delayed
    change PairingOk none (e.queue 2) s.point s.net.listenTable
    rw [← idle]
    exact flushed
  | polled f e p cid wakes popped current =>
    have flushed := wakes.paired paired delayed
    have flushed' : PairingOk none (f.queue 2) s.point s.net.listenTable := by
      rw [← idle]
      exact flushed
    change PairingOk (some cid) (e.queue 2) s.point s.net.listenTable
    by_cases accepts : p = 2
    · subst accepts
      rw [popped.front] at flushed'
      exact flushed'.popAccept
    · rw [popped.others 2 (Ne.symm accepts)]
      apply flushed'.popOther
      -- the priority of an accept coroutine is 2
      have front : cid ∈ f.queue p := by rw [popped.front]; exact List.mem_cons_self
      obtain ⟨task, live, isPrio⟩ := (ok.wakes wakes).queued p cid front
      cases phase : (s.point cid.val).acceptPhase with
      | false => rfl
      | true =>
        have two := (ok.wakes wakes).prio cid.val task phase live
        exact absurd (isPrio.symm.trans two) accepts

variable (stack) in
/-- A frame wakes the first waiter of the port, or nobody. -/
inductive Received (s : AsyncServer σ) (f : F) : AsyncServer σ → Prop
  | nobody (quiet : ∀ seg en, stack.segment f = some seg → seg.isFirst = true →
        s.net.listenTable seg.dst.port = some en → en.admits seg.dst.addr = true →
        en.blockCids = []) :
      Received s f (s.setSockets (stack.process s.net.sockets f))
  | woke (seg : TcpSegment) (en : ListenTableEntry) (c : CoroutineId) (rest : List CoroutineId)
      (e : Executor Body) (isTcp : stack.segment f = some seg) (first : seg.isFirst = true)
      (found : s.net.listenTable seg.dst.port = some en) (admits : en.admits seg.dst.addr = true)
      (shape : en.blockCids = c :: rest) (woken : s.executor.wake c = .ok e) :
      Received s f ({ s.setExecutor e with
        net := { (s.setExecutor e).net with
          listenTable := Function.update s.net.listenTable seg.dst.port
            (some { en with blockCids := rest }) } }.setSockets (stack.process s.net.sockets f))

theorem received_ok {f : F} {net : NetState σ Body Request} (paired : s.Paired)
    (received : s.net.receive stack ifaceLocks f = .ok net) :
    Received stack s f { s with net := net } := by
  obtain ⟨m, snooped, rfl⟩ := NetState.receive_ok stack received
  cases snooped with
  | ignored ignores =>
    apply Received.nobody
    intro seg en isTcp first found admits
    rw [ignores seg en isTcp first found] at admits
    cases admits
  | admitted seg en en' n₁ _ isTcp first found admits woke answered =>
    -- endpoints are the synchronous server's
    have noEp := (paired.plain _ en found).2
    rcases NetState.wakeBlocked_ok woke with ⟨none_, rfl, rfl⟩ | ⟨c, rest, e, shape, woken, rfl, rfl⟩
    · rcases NetState.answerBlocked_ok answered with ⟨-, rfl⟩ | ⟨ep, eps, _, _, waiting, -⟩
      · apply Received.nobody
        intro seg' en' isTcp' _ found' _
        cases isTcp.symm.trans isTcp'
        cases found.symm.trans found'
        exact none_
      · rw [noEp] at waiting
        cases waiting
    · rcases NetState.answerBlocked_ok answered with ⟨-, rfl⟩ | ⟨ep, eps, _, _, waiting, -⟩
      · exact .woke seg en c rest e isTcp first found admits shape woken
      · rw [show _ = en.blockEp from rfl, noEp] at waiting
        cases waiting

/-- A blocked coroutine has priority 2, so its wake-up goes to the end of the line. -/
theorem Ok.blocked_wake {c : CoroutineId} {p : Nat} {e : Executor Body} (ok : s.Ok)
    (paired : s.Paired) (isBlocked : c ∈ (s.net.listenTable.entry p).blockCids)
    (woken : s.executor.wake c = .ok e) : e.queue 2 = s.executor.queue 2 ++ [c] := by
  obtain ⟨cid, serial, h, at_⟩ := (paired.blocked p c isBlocked).2
  have phase : (s.point c.val).acceptPhase = true := by rw [at_]; rfl
  obtain ⟨task, live⟩ := ok.live_of_acceptPhase phase
  rcases (Executor.wake_ok woken).2 with ⟨dead, -⟩ | ⟨task', live', grown⟩
  · exact absurd (dead.symm.trans live) nofun
  · rw [grown.queue_eq, ok.prio c.val task' phase live', Function.update_self]

theorem Received.paired {f : F} (received : Received stack s f t) (ok : s.Ok)
    (paired : s.Paired) : t.Paired := by
  cases received with
  | nobody _ => exact paired
  | woke seg en c rest e isTcp first found admits shape woken =>
    have isBlocked : c ∈ (s.net.listenTable.entry seg.dst.port).blockCids := by
      rw [ListenTable.entry_of_some found, shape]
      exact List.mem_cons_self
    change PairingOk s.polling (e.queue 2) s.point _
    rw [ok.blocked_wake paired isBlocked woken]
    exact paired.wakeBlocked found shape

theorem Booted.paired (booted : s.Booted t) (ok : s.Ok) (paired : s.Paired) : t.Paired := by
  obtain ⟨poller, cid, runtime, runtime', allocator, first, second⟩ := booted
  have ok₁ := ok.spawn first nofun
  -- the two coroutines of the boot have priorities 0 and 1
  have queue : runtime'.executor.queue 2 = s.executor.queue 2 := by
    rw [spawn_queue second, Function.update_of_ne (by decide), spawn_queue first,
      Function.update_of_ne (by decide)]
  change PairingOk s.polling (runtime'.executor.queue 2) (Function.update (Function.update s.point
    poller.val (.fresh .netPoll)) cid.val (.fresh .nwRecvReq)) _
  rw [queue]
  have paired₁ := paired.move (i := poller.val) (p := .fresh .netPoll)
    (by rw [(ok.dead _ (ok.table.fresh first)).1]; rfl) rfl (.inl rfl)
  exact paired₁.move (by rw [(ok₁.dead _ (ok₁.table.fresh second)).1]; rfl) rfl (.inl rfl)

theorem step_paired {a : AsyncAction F} (ok : s.Ok) (paired : s.Paired)
    (moved : s.step stack a = some t) : t.Paired := by
  cases step_moved stack moved with
  | boot _ booted => exact booted.paired ok paired
  | fetch task e idle fetched => exact (ok.fetched fetched).paired ok paired idle
  | run self _ polls ran => exact ran.paired ok paired polls
  | frame f self net polls inPoll received => exact (received_ok paired received).paired ok paired
  | interrupt vec cid e known delayed =>
    -- the bit of a delayed wake-up is no entry of a queue yet
    obtain ⟨-, rfl⟩ := Executor.delayWake_ok delayed
    exact paired
  | submit item items written => exact paired
  | tookReply reply items popped => exact paired
  | noReply empty => exact paired
  | store buffer bytes => exact paired

end AsyncServer

end RootTask.Net
