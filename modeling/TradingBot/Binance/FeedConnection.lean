import Mathlib.Data.Finset.Card
import Mathlib.Data.Finset.SDiff

/-!
# One connection of the market feed

A member of the pool multiplexes many streams over one socket. The streams it
carries at a connect are in the url; those that come and go later are requested
by messages, which wait in two buffers while the socket is not open and in which
opposing requests cancel. The buffers are cleared when the socket closes.

A socket stays with the member that made it: its handlers act on that member,
whether or not the pool still has it.
-/

namespace TradingBot.Binance

inductive SocketStatus where
  | connecting
  | open
  /-- The member has closed it and its close event is on the way. -/
  | closing
  | closed
deriving DecidableEq

/-- A socket, with the streams its server delivers once it is open. -/
structure FeedSocket where
  url : Finset String
  delivered : Finset String
  status : SocketStatus
deriving DecidableEq

inductive RpcMethod where
  | subscribe
  | unsubscribe

/-- A member of the pool. Its sockets are numbered in the order it made them. -/
structure Connection where
  ws : Option ℕ
  isOpen : Bool
  pendingSubscribes : Finset String
  pendingUnsubscribes : Finset String
  streams : Finset String
  sockets : List FeedSocket
  /-- The reconnects that are scheduled. -/
  timers : ℕ
deriving DecidableEq

def maxStreamsPerConnection : ℕ := 1024

namespace Connection

def fresh : Connection := ⟨none, false, ∅, ∅, ∅, [], 0⟩

def updateSocket (m : Connection) (socket : ℕ) (f : FeedSocket → FeedSocket) : Connection :=
  { m with sockets := m.sockets.modify socket f }

/-- Opposing requests that wait cancel out. -/
def buffer (m : Connection) : RpcMethod → String → Connection
  | .subscribe, stream =>
      if stream ∈ m.pendingUnsubscribes then
        { m with pendingUnsubscribes := m.pendingUnsubscribes.erase stream }
      else { m with pendingSubscribes := insert stream m.pendingSubscribes }
  | .unsubscribe, stream =>
      if stream ∈ m.pendingSubscribes then
        { m with pendingSubscribes := m.pendingSubscribes.erase stream }
      else { m with pendingUnsubscribes := insert stream m.pendingUnsubscribes }

/-- What a message does at the server. -/
def RpcMethod.apply (stream : String) (socket : FeedSocket) : RpcMethod → FeedSocket
  | .subscribe => { socket with delivered := insert stream socket.delivered }
  | .unsubscribe => { socket with delivered := socket.delivered.erase stream }

def sendRpc (m : Connection) (method : RpcMethod) (stream : String) : Connection :=
  match m.ws, m.isOpen with
  | some socket, true => m.updateSocket socket (RpcMethod.apply stream · method)
  | _, _ => m.buffer method stream

def flushPendingRpcs (m : Connection) : Connection :=
  match m.ws with
  | none => m
  | some socket =>
      { m.updateSocket socket fun s =>
          { s with delivered := (s.delivered ∪ m.pendingSubscribes) \ m.pendingUnsubscribes } with
        pendingSubscribes := ∅
        pendingUnsubscribes := ∅ }

/-- A member that has a socket, or nothing to stream, is left alone. -/
def connect (m : Connection) : Connection :=
  if m.streams = ∅ then m
  else match m.ws with
    | some _ => m
    | none =>
        { m with
          ws := some m.sockets.length
          sockets := m.sockets ++ [⟨m.streams, ∅, .connecting⟩] }

/-- `assignStream` at the member it chose, and the subscribe that follows. -/
def addStream (m : Connection) (stream : String) : Connection :=
  let m := { m with streams := insert stream m.streams }
  match m.ws with
  | none => m.connect
  | some _ => m.sendRpc .subscribe stream

/-- A member that carries nothing closes its socket; the pool then forgets the member. -/
def prune (m : Connection) : Connection :=
  match m.ws with
  | none => m
  | some socket =>
      { m.updateSocket socket fun s => { s with status := .closing } with ws := none }

def dropStream (m : Connection) (stream : String) : Connection :=
  let m := { m with streams := m.streams.erase stream }.sendRpc .unsubscribe stream
  if m.streams = ∅ then m.prune else m

def onOpen (m : Connection) (socket : ℕ) : Connection :=
  { m.updateSocket socket fun s => { s with status := .open, delivered := s.url } with
    isOpen := true }.flushPendingRpcs

def onClose (m : Connection) (socket : ℕ) : Connection :=
  { m.updateSocket socket fun s => { s with status := .closed } with
    ws := none
    isOpen := false
    pendingSubscribes := ∅
    pendingUnsubscribes := ∅
    timers := if m.streams = ∅ then m.timers else m.timers + 1 }

/-- The step of `forceReconnect` at one member. -/
def forceReconnect (m : Connection) : Connection :=
  match m.ws, m.isOpen with
  | some socket, true =>
      { m.updateSocket socket fun s => { s with status := .closing } with isOpen := false }
  | _, _ => m

variable {m : Connection} {socket other : ℕ} {stream : String} {method : RpcMethod}

theorem buffer_frame :
    (m.buffer method stream).ws = m.ws ∧ (m.buffer method stream).isOpen = m.isOpen ∧
      (m.buffer method stream).sockets = m.sockets ∧
      (m.buffer method stream).streams = m.streams := by
  cases method <;> unfold buffer <;> dsimp only <;> split <;> exact ⟨rfl, rfl, rfl, rfl⟩

@[simp]
theorem sendRpc_streams : (m.sendRpc method stream).streams = m.streams := by
  unfold sendRpc
  split
  · rfl
  · exact buffer_frame.2.2.2

@[simp]
theorem connect_streams : m.connect.streams = m.streams := by
  unfold connect
  split
  · rfl
  · split <;> rfl

@[simp]
theorem addStream_streams : (m.addStream stream).streams = insert stream m.streams := by
  unfold addStream
  dsimp only
  split <;> simp

@[simp]
theorem dropStream_streams : (m.dropStream stream).streams = m.streams.erase stream := by
  unfold dropStream
  dsimp only
  split
  · unfold prune
    split <;> simp [updateSocket]
  · simp

@[simp]
theorem onOpen_streams : (m.onOpen socket).streams = m.streams := by
  unfold onOpen flushPendingRpcs
  split <;> rfl

@[simp]
theorem onClose_streams : (m.onClose socket).streams = m.streams := rfl

@[simp]
theorem forceReconnect_streams : m.forceReconnect.streams = m.streams := by
  unfold forceReconnect
  split <;> rfl

/-! ### At most one socket -/

/-- The socket has not closed yet. -/
def Unclosed (m : Connection) (socket : ℕ) : Prop :=
  ∃ s, m.sockets[socket]? = some s ∧ s.status ≠ .closed

/-- The member keeps within the limit, and the one socket it may have is the one it holds,
unless it was dropped by the pool while that socket closes. -/
structure Shaped (m : Connection) : Prop where
  within : m.streams.card ≤ maxStreamsPerConnection
  held : ∀ socket, m.Unclosed socket → m.ws = some socket ∨ m.ws = none ∧ m.streams = ∅
  single : ∀ first second, m.Unclosed first → m.Unclosed second → first = second
  live : ∀ socket, m.ws = some socket → m.Unclosed socket

/-- Whatever is done to a socket that has not closed, no closed one comes back. -/
theorem unclosed_of_updateSocket {f : FeedSocket → FeedSocket} (hsocket : m.Unclosed socket)
    (h : (m.updateSocket socket f).Unclosed other) : m.Unclosed other := by
  obtain ⟨s, hs, hstatus⟩ := h
  simp only [updateSocket, List.getElem?_modify] at hs
  obtain ⟨before, hbefore, rfl⟩ := Option.map_eq_some_iff.mp hs
  by_cases heq : socket = other
  · exact heq ▸ hsocket
  · exact ⟨before, hbefore, by simpa [heq] using hstatus⟩

theorem updateSocket_unclosed {f : FeedSocket → FeedSocket}
    (hf : ∀ s, s.status ≠ .closed → (f s).status ≠ .closed)
    (h : m.Unclosed other) : (m.updateSocket socket f).Unclosed other := by
  obtain ⟨s, hs, hstatus⟩ := h
  by_cases heq : socket = other
  · exact ⟨f s, by simp [updateSocket, heq, hs], hf s hstatus⟩
  · exact ⟨s, by simp [updateSocket, heq, hs], hstatus⟩

theorem Shaped.updateSocket {f : FeedSocket → FeedSocket} (h : m.Shaped)
    (hsocket : m.Unclosed socket) (hf : ∀ s, s.status ≠ .closed → (f s).status ≠ .closed) :
    (m.updateSocket socket f).Shaped where
  within := h.within
  held := fun other hother => h.held other (unclosed_of_updateSocket hsocket hother)
  single := fun first second hfirst hsecond => h.single first second
    (unclosed_of_updateSocket hsocket hfirst) (unclosed_of_updateSocket hsocket hsecond)
  live := fun other hother => updateSocket_unclosed hf (h.live other hother)

theorem Shaped.congr {m' : Connection} (h : m.Shaped) (hstreams : m'.streams = m.streams)
    (hws : m'.ws = m.ws) (hsockets : m'.sockets = m.sockets) : m'.Shaped where
  within := hstreams ▸ h.within
  held := by
    intro socket hsocket
    rw [hws, hstreams]
    exact h.held socket (by simpa [Unclosed, hsockets] using hsocket)
  single := by
    intro first second hfirst hsecond
    exact h.single first second (by simpa [Unclosed, hsockets] using hfirst)
      (by simpa [Unclosed, hsockets] using hsecond)
  live := by
    intro socket hsocket
    rw [hws] at hsocket
    simpa [Unclosed, hsockets] using h.live socket hsocket

theorem Shaped.buffer (h : m.Shaped) (method : RpcMethod) (stream : String) :
    (m.buffer method stream).Shaped := by
  cases method <;> unfold Connection.buffer <;> dsimp only <;> split <;>
    exact h.congr rfl rfl rfl

theorem Shaped.sendRpc (h : m.Shaped) (method : RpcMethod) (stream : String) :
    (m.sendRpc method stream).Shaped := by
  unfold Connection.sendRpc
  split
  · next socket hws _ =>
      exact h.updateSocket (h.live socket hws) fun s hs => by cases method <;> exact hs
  · exact h.buffer method stream

theorem Shaped.flushPendingRpcs (h : m.Shaped) : m.flushPendingRpcs.Shaped := by
  unfold Connection.flushPendingRpcs
  split
  · exact h
  · next socket hws =>
      have hsent := h.updateSocket (h.live socket hws) (f := fun s =>
        { s with delivered := (s.delivered ∪ m.pendingSubscribes) \ m.pendingUnsubscribes })
        fun s hs => hs
      exact hsent.congr rfl rfl rfl

/-- A member without an unclosed socket may make one. -/
theorem Shaped.connect (h : m.Shaped) (hfree : m.ws = none → ∀ socket, ¬ m.Unclosed socket) :
    m.connect.Shaped := by
  unfold Connection.connect
  split
  · exact h
  · split
    · exact h
    · next hws =>
        have hnew : ∀ socket, { m with
            ws := some m.sockets.length
            sockets := m.sockets ++ [FeedSocket.mk m.streams ∅ .connecting] }.Unclosed socket →
            socket = m.sockets.length := by
          rintro socket ⟨s, hs, hstatus⟩
          rcases Nat.lt_trichotomy socket m.sockets.length with hlt | heq | hgt
          · rw [List.getElem?_append_left hlt] at hs
            exact absurd (Exists.intro s ⟨hs, hstatus⟩) (hfree hws socket)
          · exact heq
          · rw [List.getElem?_eq_none (by simp; omega)] at hs
            cases hs
        refine ⟨h.within, fun socket hsocket => .inl ?_, fun first second hfirst hsecond => ?_, ?_⟩
        · rw [hnew socket hsocket]
        · rw [hnew first hfirst, hnew second hsecond]
        · intro socket hsocket
          obtain rfl := Option.some.inj hsocket
          exact ⟨⟨m.streams, ∅, .connecting⟩, by simp, by simp⟩

theorem fresh_shaped : fresh.Shaped where
  within := by simp [fresh]
  held := by
    rintro socket ⟨s, hs, -⟩
    cases hs
  single := by
    rintro first second ⟨s, hs, -⟩
    cases hs
  live := nofun

/-- A member with room takes a stream; one that carries nothing is a fresh one. -/
theorem Shaped.addStream (h : m.Shaped) (hroom : m.streams.card < maxStreamsPerConnection)
    (hcarries : m.streams = ∅ → m = fresh) (stream : String) : (m.addStream stream).Shaped := by
  have hheld : ∀ socket, m.Unclosed socket → m.ws = some socket := by
    intro socket hsocket
    rcases h.held socket hsocket with hws | ⟨-, hempty⟩
    · exact hws
    · obtain ⟨s, hs, -⟩ := hsocket
      rw [hcarries hempty] at hs
      cases hs
  have hadded : { m with streams := insert stream m.streams }.Shaped :=
    ⟨(Finset.card_insert_le _ _).trans hroom, fun socket hsocket => .inl (hheld socket hsocket),
      h.single, h.live⟩
  unfold Connection.addStream
  dsimp only
  split
  · next hws =>
      refine hadded.connect fun _ socket hsocket => ?_
      have := hheld socket hsocket
      rw [hws] at this
      cases this
  · exact hadded.sendRpc .subscribe stream

theorem Shaped.prune (h : m.Shaped) (hempty : m.streams = ∅) : m.prune.Shaped := by
  unfold Connection.prune
  split
  · exact h
  · next socket hws =>
      have hsocket := h.live socket hws
      refine ⟨h.within, fun _ _ => .inr ⟨rfl, hempty⟩, fun first second hfirst hsecond => ?_, nofun⟩
      exact h.single first second (unclosed_of_updateSocket hsocket hfirst)
        (unclosed_of_updateSocket hsocket hsecond)

theorem Shaped.dropStream (h : m.Shaped) (hcarries : m.streams ≠ ∅) (stream : String) :
    (m.dropStream stream).Shaped := by
  have hheld : ∀ socket, m.Unclosed socket → m.ws = some socket := fun socket hsocket =>
    (h.held socket hsocket).resolve_right fun hnone => hcarries hnone.2
  have hdropped : { m with streams := m.streams.erase stream }.Shaped :=
    ⟨(Finset.card_le_card (Finset.erase_subset _ _)).trans h.within,
      fun socket hsocket => .inl (hheld socket hsocket), h.single, h.live⟩
  unfold Connection.dropStream
  dsimp only
  split
  · next hempty => exact (hdropped.sendRpc .unsubscribe stream).prune hempty
  · exact hdropped.sendRpc .unsubscribe stream

theorem Shaped.onOpen (h : m.Shaped) (hsocket : m.Unclosed socket) :
    (m.onOpen socket).Shaped := by
  have hopened := h.updateSocket hsocket
    (f := fun s => { s with status := .open, delivered := s.url }) fun s _ => by simp
  refine Shaped.flushPendingRpcs ?_
  exact hopened.congr rfl rfl rfl

theorem Shaped.onClose (h : m.Shaped) (hsocket : m.Unclosed socket) :
    (m.onClose socket).Shaped := by
  have hnone : ∀ other, ¬ (m.onClose socket).Unclosed other := by
    rintro other ⟨s, hs, hstatus⟩
    simp only [Connection.onClose, Connection.updateSocket, List.getElem?_modify] at hs
    obtain ⟨before, hbefore, rfl⟩ := Option.map_eq_some_iff.mp hs
    by_cases heq : socket = other
    · simp [heq] at hstatus
    · refine heq (h.single socket other hsocket ⟨before, hbefore, ?_⟩)
      simpa [heq] using hstatus
  exact ⟨h.within, fun other hother => absurd hother (hnone other),
    fun first second hfirst => absurd hfirst (hnone first), nofun⟩

theorem Shaped.forceReconnect (h : m.Shaped) : m.forceReconnect.Shaped := by
  unfold Connection.forceReconnect
  split
  · next socket hws _ =>
      have hclosing := h.updateSocket (h.live socket hws)
        (f := fun s => { s with status := .closing }) fun s _ => by simp
      exact hclosing.congr rfl rfl rfl
  · exact h

/-! ### What the server delivers -/

/-- What the socket a member holds has to do with the member's streams. While it connects, the
url and the buffers make up the streams; once it is open, the buffers are empty. -/
def Feeds (m : Connection) (s : FeedSocket) : Prop :=
  match s.status with
  | .connecting =>
      m.isOpen = false ∧ m.streams = (s.url ∪ m.pendingSubscribes) \ m.pendingUnsubscribes ∧
        Disjoint m.pendingSubscribes s.url ∧ Disjoint m.pendingSubscribes m.pendingUnsubscribes
  | .open =>
      m.isOpen = true ∧ m.pendingSubscribes = ∅ ∧ m.pendingUnsubscribes = ∅ ∧
        s.delivered = m.streams
  | .closing => m.isOpen = false
  | .closed => False

/-- While there is no socket, a request that waits is one to unsubscribe from what the member
does not carry. -/
def Fed (m : Connection) : Prop :=
  match m.ws with
  | none =>
      m.isOpen = false ∧ m.pendingSubscribes = ∅ ∧ Disjoint m.pendingUnsubscribes m.streams
  | some socket => ∃ s, m.sockets[socket]? = some s ∧ m.Feeds s

/-- The condition under which a stream that comes to a member reaches the server: no request to
unsubscribe from it waits that the next socket would send, or cancel against, in vain. -/
def takes (m : Connection) (stream : String) : Bool :=
  match m.ws with
  | none => stream ∉ m.pendingUnsubscribes
  | some socket =>
      match m.sockets[socket]? with
      | some s => s.status != .connecting || stream ∉ m.pendingUnsubscribes || stream ∈ s.url
      | none => true

theorem fresh_fed : fresh.Fed := ⟨rfl, rfl, by simp [fresh]⟩

theorem Fed.connect (h : m.Fed) : m.connect.Fed := by
  unfold Connection.connect
  split
  · exact h
  · split
    · exact h
    · next hws =>
        rw [Fed, hws] at h
        obtain ⟨hclosed, hsubscribes, hunsubscribes⟩ := h
        refine ⟨⟨m.streams, ∅, .connecting⟩, by simp, hclosed, ?_, ?_, ?_⟩
        · simp [hsubscribes, Finset.sdiff_eq_self_of_disjoint hunsubscribes.symm]
        · simp [hsubscribes]
        · simp [hsubscribes]

/-- A stream that the member does not carry yet, requested while the socket connects. -/
theorem buffer_subscribe_feeds {s : FeedSocket} (h : m.Feeds s) (hstatus : s.status = .connecting)
    (hnew : stream ∉ m.streams)
    (htakes : stream ∈ m.pendingUnsubscribes → stream ∈ s.url) :
    ({ m with streams := insert stream m.streams }.buffer .subscribe stream).Feeds s := by
  simp only [Feeds, hstatus] at h
  obtain ⟨hclosed, hstreams, hurl, hpending⟩ := h
  have hunion : stream ∉ m.pendingUnsubscribes → stream ∉ s.url ∪ m.pendingSubscribes := by
    intro hwaits hmem
    exact hnew (hstreams ▸ Finset.mem_sdiff.mpr ⟨hmem, hwaits⟩)
  unfold buffer
  dsimp only
  split
  · next hwaits =>
      simp only [Feeds, hstatus]
      refine ⟨hclosed, ?_, hurl, hpending.mono_right (Finset.erase_subset _ _)⟩
      rw [hstreams]
      ext other
      have := htakes hwaits
      by_cases heq : other = stream <;> simp [heq, this]
  · next hwaits =>
      simp only [Feeds, hstatus]
      have habsent := hunion hwaits
      rw [Finset.notMem_union] at habsent
      refine ⟨hclosed, ?_, ?_, ?_⟩
      · rw [hstreams]
        ext other
        by_cases heq : other = stream <;> simp [heq, hwaits]
      · exact Finset.disjoint_insert_left.mpr ⟨habsent.1, hurl⟩
      · exact Finset.disjoint_insert_left.mpr ⟨hwaits, hpending⟩

theorem buffer_unsubscribe_feeds {s : FeedSocket} (h : m.Feeds s)
    (hstatus : s.status = .connecting) :
    ({ m with streams := m.streams.erase stream }.buffer .unsubscribe stream).Feeds s := by
  simp only [Feeds, hstatus] at h
  obtain ⟨hclosed, hstreams, hurl, hpending⟩ := h
  unfold buffer
  dsimp only
  split
  · next hwaits =>
      simp only [Feeds, hstatus]
      have habsent : stream ∉ s.url := Finset.disjoint_left.mp hurl hwaits
      refine ⟨hclosed, ?_, hurl.mono_left (Finset.erase_subset _ _),
        hpending.mono_left (Finset.erase_subset _ _)⟩
      rw [hstreams]
      ext other
      by_cases heq : other = stream <;> simp [heq, habsent]
  · next hwaits =>
      simp only [Feeds, hstatus]
      refine ⟨hclosed, ?_, hurl, Finset.disjoint_insert_right.mpr ⟨hwaits, hpending⟩⟩
      rw [hstreams]
      ext other
      by_cases heq : other = stream <;> simp [heq]

/-- What a request has to do so that the member is still fed: wait in the buffers until the
socket is open, and be sent from then on. -/
theorem sendRpc_fed {s : FeedSocket} (hws : m.ws = some socket) (hs : m.sockets[socket]? = some s)
    (hconnecting : s.status = .connecting →
      m.isOpen = false ∧ (m.buffer method stream).Feeds s)
    (hopen : s.status = .open → m.isOpen = true ∧ m.Feeds (RpcMethod.apply stream s method))
    (hclosing : s.status = .closing → m.isOpen = false) (hclosed : s.status ≠ .closed) :
    (m.sendRpc method stream).Fed := by
  have hbuffers : m.isOpen = false → (m.buffer method stream).Feeds s →
      (m.sendRpc method stream).Fed := by
    intro hnot hfeeds
    have hbuffer : m.sendRpc method stream = m.buffer method stream := by
      simp [sendRpc, hnot]
    rw [hbuffer, Fed, buffer_frame.1, buffer_frame.2.2.1]
    simp only [hws]
    exact ⟨s, hs, hfeeds⟩
  cases hstatus : s.status with
  | connecting => exact hbuffers (hconnecting hstatus).1 (hconnecting hstatus).2
  | «open» =>
      obtain ⟨hisOpen, hfeeds⟩ := hopen hstatus
      have hsent : m.sendRpc method stream =
          m.updateSocket socket (RpcMethod.apply stream · method) := by
        simp [sendRpc, hws, hisOpen]
      rw [hsent, Fed]
      simp only [updateSocket, hws]
      exact ⟨RpcMethod.apply stream s method, by simp [hs], hfeeds⟩
  | closing =>
      refine hbuffers (hclosing hstatus) ?_
      simp only [Feeds, hstatus, buffer_frame.2.1]
      exact hclosing hstatus
  | closed => exact absurd hstatus hclosed

theorem Feeds.isOpen_eq {s : FeedSocket} (h : m.Feeds s) :
    s.status ≠ .closed ∧ (m.isOpen = true ↔ s.status = .open) := by
  unfold Feeds at h
  cases hstatus : s.status <;> simp only [hstatus] at h
  · simp [h.1]
  · simp [h.1]
  · simp [h]

theorem Fed.addStream (h : m.Fed) (hnew : stream ∉ m.streams) (htakes : m.takes stream = true) :
    (m.addStream stream).Fed := by
  unfold Connection.addStream
  dsimp only
  split
  · next hws =>
      refine Fed.connect ?_
      simp only [Fed, hws] at h ⊢
      simp only [takes, hws, decide_eq_true_eq] at htakes
      exact ⟨h.1, h.2.1, Finset.disjoint_insert_right.mpr ⟨htakes, h.2.2⟩⟩
  · next socket hws =>
      simp only [Fed, hws] at h
      obtain ⟨s, hs, hfeeds⟩ := h
      obtain ⟨hclosed, hisOpen⟩ := hfeeds.isOpen_eq
      refine sendRpc_fed (m := { m with streams := insert stream m.streams }) hws hs ?_ ?_ ?_
        hclosed
      · intro hstatus
        refine ⟨by simp [← Bool.not_eq_true, hisOpen, hstatus], ?_⟩
        refine buffer_subscribe_feeds hfeeds hstatus hnew ?_
        simpa [takes, hws, hs, hstatus, or_iff_not_imp_left] using htakes
      · intro hstatus
        refine ⟨hisOpen.mpr hstatus, ?_⟩
        simp only [Feeds, RpcMethod.apply, hstatus] at hfeeds ⊢
        exact ⟨hfeeds.1, hfeeds.2.1, hfeeds.2.2.1, by rw [hfeeds.2.2.2]⟩
      · intro hstatus
        simp [← Bool.not_eq_true, hisOpen, hstatus]

/-- A member that still carries something goes on being fed. -/
theorem Fed.dropStream (h : m.Fed) (hrest : m.streams.erase stream ≠ ∅) :
    (m.dropStream stream).Fed := by
  unfold Connection.dropStream
  dsimp only
  rw [sendRpc_streams, if_neg hrest]
  cases hws : m.ws with
  | none =>
      simp only [Fed, hws] at h
      have hempty : stream ∉ m.pendingSubscribes := by simp [h.2.1]
      simp only [sendRpc, Connection.buffer, hempty, if_false, Fed]
      refine ⟨h.1, h.2.1, ?_⟩
      rw [Finset.disjoint_insert_left]
      exact ⟨by simp, h.2.2.mono_right (Finset.erase_subset _ _)⟩
  | some socket =>
      simp only [Fed, hws] at h
      obtain ⟨s, hs, hfeeds⟩ := h
      obtain ⟨hclosed, hisOpen⟩ := hfeeds.isOpen_eq
      rw [← hws]
      refine sendRpc_fed (m := { m with streams := m.streams.erase stream }) hws hs ?_ ?_ ?_
        hclosed
      · intro hstatus
        refine ⟨by simp [← Bool.not_eq_true, hisOpen, hstatus], ?_⟩
        exact buffer_unsubscribe_feeds hfeeds hstatus
      · intro hstatus
        refine ⟨hisOpen.mpr hstatus, ?_⟩
        simp only [Feeds, RpcMethod.apply, hstatus] at hfeeds ⊢
        exact ⟨hfeeds.1, hfeeds.2.1, hfeeds.2.2.1, by rw [hfeeds.2.2.2]⟩
      · intro hstatus
        simp [← Bool.not_eq_true, hisOpen, hstatus]

/-- The url and the buffers are what the server delivers from the open on. -/
theorem Fed.onOpen {s : FeedSocket} (h : m.Fed) (hws : m.ws = some socket)
    (hs : m.sockets[socket]? = some s) (hstatus : s.status = .connecting) :
    (m.onOpen socket).Fed := by
  simp only [Fed, hws] at h
  obtain ⟨found, hfound, hfeeds⟩ := h
  rw [hs] at hfound
  obtain rfl := Option.some.inj hfound
  simp only [Feeds, hstatus] at hfeeds
  simp only [Connection.onOpen, Connection.flushPendingRpcs, Connection.updateSocket, hws, Fed]
  refine ⟨⟨s.url, (s.url ∪ m.pendingSubscribes) \ m.pendingUnsubscribes, .open⟩, by simp [hs], ?_⟩
  exact ⟨rfl, rfl, rfl, hfeeds.2.1.symm⟩

theorem onClose_fed : (m.onClose socket).Fed := ⟨rfl, rfl, by simp [onClose]⟩

theorem Fed.forceReconnect (h : m.Fed) : m.forceReconnect.Fed := by
  unfold Connection.forceReconnect
  split
  · next socket hws hopen =>
      simp only [Fed, hws] at h
      obtain ⟨s, hs, hfeeds⟩ := h
      simp only [Fed, Connection.updateSocket, hws]
      exact ⟨⟨s.url, s.delivered, .closing⟩, by simp [hs], rfl⟩
  · exact h

theorem Fed.delivered (h : m.Fed) (hws : m.ws = some socket) (hopen : m.isOpen = true) :
    ∃ s, m.sockets[socket]? = some s ∧ s.delivered = m.streams := by
  simp only [Fed, hws] at h
  obtain ⟨s, hs, hfeeds⟩ := h
  have hstatus := hfeeds.isOpen_eq.2.mp hopen
  simp only [Feeds, hstatus] at hfeeds
  exact ⟨s, hs, hfeeds.2.2.2⟩

end Connection

end TradingBot.Binance
