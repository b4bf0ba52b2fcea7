import TradingBot.Binance.FeedConnection
import TradingBot.Lib.InsertionMap
import TradingBot.Lib.LabelledRun

/-!
# The pool of feed connections

Klines and mini-tickers are subscribed by key. The first subscriber of a key has
its stream assigned to the first member with room, or to a new member while the
pool has not reached its ceiling; the last one to go gives the stream up, and a
member that carries nothing is forgotten.
-/

namespace TradingBot.Binance

open InsertionMap LabelledRun

def streamOf (symbol interval : String) : String := symbol.toLower ++ "@kline_" ++ interval

def tickerStreamOf (symbol : String) : String := symbol.toLower ++ "@miniTicker"

def keyOf (symbol interval : String) : String := symbol ++ "|" ++ interval

def maxPoolMembers : ℕ := 16

/-- The keys of the two maps. -/
inductive FeedKey where
  | kline (key : String)
  | ticker (symbol : String)
deriving DecidableEq

structure FeedKeyState where
  stream : String
  memberId : Option ℕ
  subscribers : ℕ

/-- The pool. Members are addressed by the number they were made with; the handles are the
subscriptions that callers hold and have not cancelled. -/
structure FeedPool where
  keys : List (FeedKey × FeedKeyState)
  handles : List (ℕ × FeedKey)
  nextHandle : ℕ
  connections : ℕ → Connection
  members : List ℕ
  nextMemberId : ℕ

inductive FeedStep where
  | subscribeKlines (symbol interval : String)
  | subscribeMiniTicker (symbol : String)
  | unsubscribe (handle : ℕ)
  | opens (memberId socket : ℕ)
  | closes (memberId socket : ℕ)
  /-- A scheduled reconnect is due. -/
  | reconnect (memberId : ℕ)
  | forceReconnect

namespace FeedPool

def start : FeedPool := ⟨[], [], 0, fun _ => .fresh, [], 0⟩

def setConnection (pool : FeedPool) (memberId : ℕ) (m : Connection) : FeedPool :=
  { pool with connections := Function.update pool.connections memberId m }

/-- A pool at its ceiling throws. -/
def allocMember (pool : FeedPool) : Option (FeedPool × ℕ) :=
  if maxPoolMembers ≤ pool.members.length then none
  else
    some ({ pool.setConnection pool.nextMemberId .fresh with
      members := pool.members ++ [pool.nextMemberId]
      nextMemberId := pool.nextMemberId + 1 }, pool.nextMemberId)

/-- The first member with room, or else a new one. -/
def chooseMember (pool : FeedPool) : Option (FeedPool × ℕ) :=
  match pool.members.find? fun c => (pool.connections c).streams.card < maxStreamsPerConnection with
  | some memberId => some (pool, memberId)
  | none => pool.allocMember

/-- Where no member can be made, the key stays behind with the subscriber it was made for. -/
def subscribe (pool : FeedPool) (key : FeedKey) (stream : String) : FeedPool :=
  match get key pool.keys with
  | some state =>
      { pool with
        keys := set key { state with subscribers := state.subscribers + 1 } pool.keys
        handles := set pool.nextHandle key pool.handles
        nextHandle := pool.nextHandle + 1 }
  | none =>
      match pool.chooseMember with
      | none => { pool with keys := set key ⟨stream, none, 1⟩ pool.keys }
      | some (chosen, memberId) =>
          { chosen.setConnection memberId ((chosen.connections memberId).addStream stream) with
            keys := set key ⟨stream, some memberId, 1⟩ pool.keys
            handles := set pool.nextHandle key pool.handles
            nextHandle := pool.nextHandle + 1 }

def releaseStream (pool : FeedPool) (memberId : ℕ) (stream : String) : FeedPool :=
  if memberId ∈ pool.members then
    let m := (pool.connections memberId).dropStream stream
    { pool.setConnection memberId m with
      members := if m.streams = ∅ then pool.members.erase memberId else pool.members }
  else pool

/-- A handle that was cancelled before is not found. -/
def unsubscribe (pool : FeedPool) (handle : ℕ) : Option FeedPool :=
  match get handle pool.handles with
  | none => some pool
  | some key =>
      match get key pool.keys with
      | none => none
      | some state =>
          let rest := { pool with handles := delete handle pool.handles }
          if state.subscribers ≤ 1 then
            let rest := { rest with keys := delete key pool.keys }
            match state.memberId with
            | none => some rest
            | some memberId => some (rest.releaseStream memberId state.stream)
          else
            some { rest with
              keys := set key { state with subscribers := state.subscribers - 1 } pool.keys }

def socketStatus (pool : FeedPool) (memberId socket : ℕ) : SocketStatus :=
  ((pool.connections memberId).sockets[socket]?.map (·.status)).getD .closed

def step (pool : FeedPool) : FeedStep → Option FeedPool
  | .subscribeKlines symbol interval =>
      some (pool.subscribe (.kline (keyOf symbol interval)) (streamOf symbol interval))
  | .subscribeMiniTicker symbol => some (pool.subscribe (.ticker symbol) (tickerStreamOf symbol))
  | .unsubscribe handle => pool.unsubscribe handle
  | .opens memberId socket =>
      if pool.socketStatus memberId socket = .connecting then
        some (pool.setConnection memberId ((pool.connections memberId).onOpen socket))
      else none
  | .closes memberId socket =>
      if pool.socketStatus memberId socket = .closed then none
      else some (pool.setConnection memberId ((pool.connections memberId).onClose socket))
  | .reconnect memberId =>
      let m := pool.connections memberId
      if m.timers = 0 then none
      else some (pool.setConnection memberId { m with timers := m.timers - 1 }.connect)
  | .forceReconnect =>
      some { pool with
        connections := fun c =>
          if c ∈ pool.members then (pool.connections c).forceReconnect else pool.connections c }

/-- The condition on a subscribe of a new key: the pool has room for it, no member carries its
stream for another key, and the member it goes to takes it. -/
def accepts (pool : FeedPool) (key : FeedKey) (stream : String) : Bool :=
  (get key pool.keys).isSome ||
    pool.members.all (fun c => stream ∉ (pool.connections c).streams) &&
    match pool.chooseMember with
    | none => false
    | some (chosen, memberId) => (chosen.connections memberId).takes stream

def orderly (pool : FeedPool) : FeedStep → Bool
  | .subscribeKlines symbol interval =>
      pool.accepts (.kline (keyOf symbol interval)) (streamOf symbol interval)
  | .subscribeMiniTicker symbol => pool.accepts (.ticker symbol) (tickerStreamOf symbol)
  | _ => true

def Orderly (pool : FeedPool) (label : FeedStep) : Prop := pool.orderly label = true

/-! ### Members -/

/-- Every member is shaped, and the members of the pool are those that carry a stream. -/
structure Shaped (pool : FeedPool) : Prop where
  shaped : ∀ c, (pool.connections c).Shaped
  allocated : ∀ c ∈ pool.members, c < pool.nextMemberId
  nodup : pool.members.Nodup
  carrying : ∀ c, c ∈ pool.members ↔ (pool.connections c).streams ≠ ∅

variable {pool pool' : FeedPool} {memberId : ℕ} {stream : String} {m : Connection}

theorem start_shaped : start.Shaped where
  shaped := fun _ => Connection.fresh_shaped
  allocated := nofun
  nodup := List.nodup_nil
  carrying := fun c => by simp [start, Connection.fresh]

theorem setConnection_self : (pool.setConnection memberId m).connections memberId = m :=
  Function.update_self ..

theorem setConnection_other {c : ℕ} (hother : c ≠ memberId) :
    (pool.setConnection memberId m).connections c = pool.connections c :=
  Function.update_of_ne hother ..

theorem Shaped.replace (h : pool.Shaped) {members : List ℕ} {nextMemberId : ℕ} (hm : m.Shaped)
    (hmember : memberId ∈ members ↔ m.streams ≠ ∅)
    (hothers : ∀ c, c ≠ memberId → (c ∈ members ↔ c ∈ pool.members)) (hnodup : members.Nodup)
    (hallocated : ∀ c ∈ members, c < nextMemberId) :
    { pool.setConnection memberId m with members, nextMemberId }.Shaped where
  shaped := by
    intro c
    by_cases heq : c = memberId
    · subst heq
      exact (@setConnection_self pool c m).symm ▸ hm
    · exact (@setConnection_other pool memberId m c heq).symm ▸ h.shaped c
  allocated := hallocated
  nodup := hnodup
  carrying := by
    intro c
    dsimp only
    by_cases heq : c = memberId
    · subst heq
      rw [setConnection_self]
      exact hmember
    · rw [setConnection_other heq, hothers c heq]
      exact h.carrying c

/-- Changing a member without changing what it carries. -/
theorem Shaped.setConnection (h : pool.Shaped) (hm : m.Shaped)
    (hstreams : m.streams = (pool.connections memberId).streams) :
    (pool.setConnection memberId m).Shaped := by
  refine h.replace hm ?_ (fun _ _ => Iff.rfl) h.nodup h.allocated
  rw [hstreams]
  exact h.carrying memberId

theorem chooseMember_cases (hchoose : pool.chooseMember = some (pool', memberId)) :
    (pool' = pool ∧ memberId ∈ pool.members ∧
      (pool.connections memberId).streams.card < maxStreamsPerConnection) ∨
    (memberId = pool.nextMemberId ∧ pool'.connections memberId = .fresh ∧
      pool' = { pool.setConnection memberId .fresh with
        members := pool.members ++ [memberId]
        nextMemberId := memberId + 1 }) := by
  unfold chooseMember at hchoose
  split at hchoose
  · next hfind =>
      obtain ⟨rfl, rfl⟩ := Prod.mk.inj (Option.some.inj hchoose)
      exact .inl ⟨rfl, List.mem_of_find?_eq_some hfind, by simpa using List.find?_some hfind⟩
  · unfold allocMember at hchoose
    split at hchoose
    · cases hchoose
    · obtain ⟨rfl, rfl⟩ := Prod.mk.inj (Option.some.inj hchoose)
      exact .inr ⟨rfl, setConnection_self, rfl⟩

theorem Shaped.assignStream (h : pool.Shaped)
    (hchoose : pool.chooseMember = some (pool', memberId)) (stream : String) :
    (pool'.setConnection memberId ((pool'.connections memberId).addStream stream)).Shaped := by
  rcases chooseMember_cases hchoose with ⟨rfl, hmember, hroom⟩ | ⟨rfl, hfresh, hpool⟩
  · have hcarries : (pool'.connections memberId).streams ≠ ∅ := (h.carrying memberId).mp hmember
    refine h.replace ?_ (iff_of_true hmember (by simp)) (fun _ _ => Iff.rfl) h.nodup h.allocated
    exact (h.shaped memberId).addStream hroom (fun hempty => absurd hempty hcarries) stream
  · have hnew : pool.nextMemberId ∉ pool.members := fun hmem =>
      absurd (h.allocated _ hmem) (Nat.lt_irrefl _)
    have hadded : (Connection.fresh.addStream stream).Shaped :=
      Connection.fresh_shaped.addStream (by decide) (fun _ => rfl) stream
    have hnodup : (pool.members ++ [pool.nextMemberId]).Nodup := by
      rw [← List.concat_eq_append]
      exact h.nodup.concat hnew
    have hallocated : ∀ c ∈ pool.members ++ [pool.nextMemberId], c < pool.nextMemberId + 1 := by
      intro c hc
      rcases List.mem_append.mp hc with hc | hc
      · exact Nat.lt_succ_of_lt (h.allocated c hc)
      · exact List.mem_singleton.mp hc ▸ Nat.lt_succ_self _
    have hreplaced : { pool.setConnection pool.nextMemberId (Connection.fresh.addStream stream) with
        members := pool.members ++ [pool.nextMemberId]
        nextMemberId := pool.nextMemberId + 1 }.Shaped :=
      h.replace hadded (by simp) (fun c hother => by simp [hother]) hnodup hallocated
    rw [hfresh, hpool]
    simpa [FeedPool.setConnection] using hreplaced

theorem Shaped.subscribe (h : pool.Shaped) (key : FeedKey) (stream : String) :
    (pool.subscribe key stream).Shaped := by
  unfold FeedPool.subscribe
  split
  · exact ⟨h.shaped, h.allocated, h.nodup, h.carrying⟩
  · split
    · exact ⟨h.shaped, h.allocated, h.nodup, h.carrying⟩
    · next chosen memberId hchoose =>
        have hassigned := h.assignStream hchoose stream
        exact ⟨hassigned.shaped, hassigned.allocated, hassigned.nodup, hassigned.carrying⟩

theorem Shaped.releaseStream (h : pool.Shaped) (memberId : ℕ) (stream : String) :
    (pool.releaseStream memberId stream).Shaped := by
  unfold FeedPool.releaseStream
  split
  · next hmember =>
      have hcarries := (h.carrying memberId).mp hmember
      refine h.replace ((h.shaped memberId).dropStream hcarries stream) ?_ ?_ ?_ ?_
      · split
        · next hempty => exact iff_of_false h.nodup.not_mem_erase fun hne => hne hempty
        · next hrest => exact iff_of_true hmember hrest
      · intro c hother
        split
        · exact List.mem_erase_of_ne hother
        · exact Iff.rfl
      · split
        · exact h.nodup.erase _
        · exact h.nodup
      · intro c hc
        split at hc
        · exact h.allocated c (List.mem_of_mem_erase hc)
        · exact h.allocated c hc
  · exact h

theorem Shaped.unsubscribe {handle : ℕ} (h : pool.Shaped)
    (hstep : pool.unsubscribe handle = some pool') : pool'.Shaped := by
  unfold FeedPool.unsubscribe at hstep
  split at hstep
  · obtain rfl := Option.some.inj hstep
    exact h
  · next key hkey =>
      split at hstep
      · cases hstep
      · next state hstate =>
          have hrest : { pool with
              handles := delete handle pool.handles
              keys := delete key pool.keys }.Shaped :=
            ⟨h.shaped, h.allocated, h.nodup, h.carrying⟩
          dsimp only at hstep
          split at hstep
          · split at hstep
            · obtain rfl := Option.some.inj hstep
              exact hrest
            · obtain rfl := Option.some.inj hstep
              exact hrest.releaseStream _ _
          · obtain rfl := Option.some.inj hstep
            exact ⟨h.shaped, h.allocated, h.nodup, h.carrying⟩

theorem unclosed_of_status {memberId socket : ℕ}
    (hstatus : pool.socketStatus memberId socket ≠ .closed) :
    (pool.connections memberId).Unclosed socket := by
  unfold socketStatus at hstatus
  cases hs : (pool.connections memberId).sockets[socket]? with
  | none => simp [hs] at hstatus
  | some s => exact ⟨s, hs, by simpa [hs] using hstatus⟩

theorem timer_shaped (h : m.Shaped) (hheld : ∀ socket, m.Unclosed socket → m.ws = some socket) :
    { m with timers := m.timers - 1 }.connect.Shaped := by
  refine Connection.Shaped.connect (h.congr rfl rfl rfl) ?_
  intro hws socket hsocket
  have := hheld socket hsocket
  rw [this] at hws
  cases hws

theorem step_shaped {label : FeedStep} (h : pool.Shaped) (hstep : pool.step label = some pool') :
    pool'.Shaped := by
  cases label with
  | subscribeKlines symbol interval =>
      obtain rfl := Option.some.inj hstep
      exact h.subscribe _ _
  | subscribeMiniTicker symbol =>
      obtain rfl := Option.some.inj hstep
      exact h.subscribe _ _
  | unsubscribe handle => exact h.unsubscribe hstep
  | opens memberId socket =>
      simp only [step] at hstep
      split at hstep
      · next hstatus =>
          obtain rfl := Option.some.inj hstep
          have hsocket : (pool.connections memberId).Unclosed socket :=
            unclosed_of_status (by simp [hstatus])
          exact h.setConnection ((h.shaped memberId).onOpen hsocket) (by simp)
      · cases hstep
  | closes memberId socket =>
      simp only [step] at hstep
      split at hstep
      · cases hstep
      · next hstatus =>
          obtain rfl := Option.some.inj hstep
          have hsocket := unclosed_of_status hstatus
          exact h.setConnection ((h.shaped memberId).onClose hsocket) (by simp)
  | reconnect memberId =>
      simp only [step] at hstep
      split at hstep
      · cases hstep
      · obtain rfl := Option.some.inj hstep
        refine h.setConnection ?_ (by simp)
        -- a member the pool has forgotten carries nothing, and is left alone
        by_cases hcarries : (pool.connections memberId).streams = ∅
        · rw [Connection.connect, if_pos hcarries]
          exact (h.shaped memberId).congr rfl rfl rfl
        · refine timer_shaped (h.shaped memberId) fun socket hsocket => ?_
          exact ((h.shaped memberId).held socket hsocket).resolve_right fun hnone =>
            hcarries hnone.2
  | forceReconnect =>
      obtain rfl := Option.some.inj hstep
      refine ⟨fun c => ?_, h.allocated, h.nodup, fun c => ?_⟩
      · dsimp only
        split
        · exact (h.shaped c).forceReconnect
        · exact h.shaped c
      · dsimp only
        split
        · simpa using h.carrying c
        · exact h.carrying c

/-! ### Streams -/

/-- Every member is fed; every key is on the member it records, on no other, and shares its
stream with no other key. -/
structure Delivering (pool : FeedPool) : Prop where
  fed : ∀ c ∈ pool.members, (pool.connections c).Fed
  placed : ∀ key state, get key pool.keys = some state → ∃ c ∈ pool.members,
    state.memberId = some c ∧ state.stream ∈ (pool.connections c).streams
  apart : ∀ c d stream, stream ∈ (pool.connections c).streams →
    stream ∈ (pool.connections d).streams → c = d
  distinct : ∀ key key' state state', get key pool.keys = some state →
    get key' pool.keys = some state' → state.stream = state'.stream → key = key'

variable {key : FeedKey} {state : FeedKeyState}

theorem start_delivering : start.Delivering where
  fed := nofun
  placed := nofun
  apart := by simp [start, Connection.fresh]
  distinct := nofun

/-- A step that leaves the keys and what the members carry. -/
theorem Delivering.of_streams (h : pool.Delivering) {connections : ℕ → Connection}
    (hstreams : ∀ c, (connections c).streams = (pool.connections c).streams)
    (hfed : ∀ c ∈ pool.members, (connections c).Fed) :
    { pool with connections }.Delivering where
  fed := hfed
  placed := by
    intro key state hget
    obtain ⟨c, hc, hmember, hstream⟩ := h.placed key state hget
    exact ⟨c, hc, hmember, by rw [hstreams]; exact hstream⟩
  apart := by
    intro c d stream hc hd
    rw [hstreams] at hc hd
    exact h.apart c d stream hc hd
  distinct := h.distinct

theorem Delivering.setConnection (h : pool.Delivering)
    (hstreams : m.streams = (pool.connections memberId).streams)
    (hfed : memberId ∈ pool.members → m.Fed) : (pool.setConnection memberId m).Delivering := by
  refine h.of_streams (fun c => ?_) fun c hc => ?_
  · by_cases heq : c = memberId
    · rw [heq, Function.update_self, hstreams]
    · rw [Function.update_of_ne heq]
  · by_cases heq : c = memberId
    · subst heq
      rw [Function.update_self]
      exact hfed hc
    · rw [Function.update_of_ne heq]
      exact h.fed c hc

theorem Delivering.recount (h : pool.Delivering) (hget : get key pool.keys = some state)
    (subscribers : ℕ) :
    { pool with keys := set key { state with subscribers } pool.keys }.Delivering := by
  have hback : ∀ other found,
      get other (set key { state with subscribers } pool.keys) = some found →
      ∃ before, get other pool.keys = some before ∧ found.stream = before.stream ∧
        found.memberId = before.memberId := by
    intro other found hfound
    by_cases heq : other = key
    · subst heq
      rw [get_set_self] at hfound
      obtain rfl := Option.some.inj hfound
      exact ⟨state, hget, rfl, rfl⟩
    · rw [get_set_other heq] at hfound
      exact ⟨found, hfound, rfl, rfl⟩
  refine ⟨h.fed, fun other found hfound => ?_, h.apart,
    fun key key' found found' hkey hkey' heq => ?_⟩
  · obtain ⟨before, hbefore, hstream, hmember⟩ := hback other found hfound
    rw [hstream, hmember]
    exact h.placed other before hbefore
  · obtain ⟨before, hbefore, hstream, -⟩ := hback key found hkey
    obtain ⟨before', hbefore', hstream', -⟩ := hback key' found' hkey'
    exact h.distinct key key' before before' hbefore hbefore' (by rw [← hstream, heq, hstream'])

theorem Delivering.rehandle (h : pool.Delivering) (handles : List (ℕ × FeedKey)) (next : ℕ) :
    { pool with handles, nextHandle := next }.Delivering :=
  ⟨h.fed, h.placed, h.apart, h.distinct⟩

theorem Delivering.assignStream (h : pool.Delivering) (hshaped : pool.Shaped)
    (hkey : get key pool.keys = none)
    (hnew : ∀ c ∈ pool.members, stream ∉ (pool.connections c).streams)
    (hchoose : pool.chooseMember = some (pool', memberId))
    (htakes : (pool'.connections memberId).takes stream = true) :
    { pool'.setConnection memberId ((pool'.connections memberId).addStream stream) with
      keys := set key ⟨stream, some memberId, 1⟩ pool.keys }.Delivering := by
  have hnowhere : ∀ c, stream ∉ (pool.connections c).streams := by
    intro c hstream
    refine hnew c ((hshaped.carrying c).mpr ?_) hstream
    exact Finset.ne_empty_of_mem hstream
  -- the chosen member carried what it carries in the pool before, if anything
  have hbefore : (∀ c, c ≠ memberId → pool'.connections c = pool.connections c) ∧
      (pool'.connections memberId).streams = (pool.connections memberId).streams ∧
      (pool'.connections memberId).Fed ∧ memberId ∈ pool'.members ∧
      ∀ c, c ≠ memberId → (c ∈ pool'.members ↔ c ∈ pool.members) := by
    rcases chooseMember_cases hchoose with ⟨rfl, hmember, -⟩ | ⟨rfl, hfresh, rfl⟩
    · exact ⟨fun _ _ => rfl, rfl, h.fed memberId hmember, hmember, fun _ _ => Iff.rfl⟩
    · have hempty : (pool.connections pool.nextMemberId).streams = ∅ := by
        by_contra hcarries
        exact absurd (hshaped.allocated _ ((hshaped.carrying _).mpr hcarries)) (Nat.lt_irrefl _)
      refine ⟨fun c hother => setConnection_other hother, ?_, ?_, by simp, fun c hother => ?_⟩
      · rw [hfresh, hempty]
        rfl
      · rw [hfresh]
        exact Connection.fresh_fed
      · simp [hother]
  obtain ⟨hsame, hcarried, hfed, hmember, hmembers⟩ := hbefore
  have hstreams : ∀ c, ((pool'.setConnection memberId
      ((pool'.connections memberId).addStream stream)).connections c).streams =
      if c = memberId then insert stream (pool.connections c).streams
      else (pool.connections c).streams := by
    intro c
    split
    · next heq => rw [heq, setConnection_self, Connection.addStream_streams, hcarried]
    · next heq => rw [setConnection_other heq, hsame c heq]
  refine ⟨fun c hc => ?_, fun other found hfound => ?_, fun c d other hc hd => ?_, ?_⟩
  · by_cases heq : c = memberId
    · subst heq
      refine (@setConnection_self pool' c _).symm ▸ hfed.addStream ?_ htakes
      rw [hcarried]
      exact hnowhere c
    · refine (@setConnection_other pool' memberId _ c heq).symm ▸ ?_
      rw [hsame c heq]
      exact h.fed c ((hmembers c heq).mp hc)
  · dsimp only
    by_cases heq : other = key
    · subst heq
      rw [get_set_self] at hfound
      obtain rfl := Option.some.inj hfound
      exact ⟨memberId, hmember, rfl, by simp [hstreams]⟩
    · rw [get_set_other heq] at hfound
      obtain ⟨c, hc, hstate, hstream⟩ := h.placed other found hfound
      refine ⟨c, ?_, hstate, ?_⟩
      · by_cases hid : c = memberId
        · exact hid ▸ hmember
        · exact (hmembers c hid).mpr hc
      · rw [hstreams]
        split
        · exact Finset.mem_insert_of_mem hstream
        · exact hstream
  · dsimp only at hc hd
    rw [hstreams] at hc hd
    by_cases heq : other = stream
    · subst heq
      split at hc
      · next hcid =>
          split at hd
          · next hdid => rw [hcid, hdid]
          · exact absurd hd (hnowhere d)
      · exact absurd hc (hnowhere c)
    · refine h.apart c d other ?_ ?_
      · split at hc
        · exact (Finset.mem_insert.mp hc).resolve_left heq
        · exact hc
      · split at hd
        · exact (Finset.mem_insert.mp hd).resolve_left heq
        · exact hd
  · have hothers : ∀ other found, other ≠ key →
        get other (set key ⟨stream, some memberId, 1⟩ pool.keys) = some found →
        get other pool.keys = some found ∧ found.stream ≠ stream := by
      intro other found hother hfound
      rw [get_set_other hother] at hfound
      obtain ⟨c, -, -, hstream⟩ := h.placed other found hfound
      refine ⟨hfound, ?_⟩
      rintro rfl
      exact hnowhere c hstream
    intro first second found found' hfirst hsecond heq
    by_cases hfirstKey : first = key <;> by_cases hsecondKey : second = key
    · rw [hfirstKey, hsecondKey]
    · subst hfirstKey
      rw [get_set_self] at hfirst
      obtain rfl := Option.some.inj hfirst
      exact absurd heq.symm (hothers second found' hsecondKey hsecond).2
    · subst hsecondKey
      rw [get_set_self] at hsecond
      obtain rfl := Option.some.inj hsecond
      exact absurd heq (hothers first found hfirstKey hfirst).2
    · exact h.distinct first second found found' (hothers first found hfirstKey hfirst).1
        (hothers second found' hsecondKey hsecond).1 heq

/-- The last subscriber of a key gives its stream up. -/
theorem Delivering.release (h : pool.Delivering) (hshaped : pool.Shaped)
    (hget : get key pool.keys = some state) (hstate : state.memberId = some memberId) :
    ({ pool with keys := delete key pool.keys }.releaseStream memberId
      state.stream).Delivering := by
  obtain ⟨found, hmember, hfound, hstream⟩ := h.placed key state hget
  obtain rfl : found = memberId := by simpa [hfound] using hstate
  have hothers : ∀ other found', get other (delete key pool.keys) = some found' →
      get other pool.keys = some found' ∧ found'.stream ≠ state.stream := by
    intro other found' hother
    have hne : other ≠ key := by
      rintro rfl
      rw [get_delete_self] at hother
      cases hother
    rw [get_delete_other hne] at hother
    exact ⟨hother, fun heq => hne (h.distinct other key found' state hother hget heq)⟩
  have hstreams : ∀ c, ((pool.setConnection found
      ((pool.connections found).dropStream state.stream)).connections c).streams ⊆
      (pool.connections c).streams := by
    intro c
    by_cases heq : c = found
    · rw [heq, setConnection_self, Connection.dropStream_streams]
      exact Finset.erase_subset _ _
    · rw [setConnection_other heq]
  unfold releaseStream
  dsimp only
  rw [if_pos hmember]
  refine ⟨fun c hc => ?_, fun other found' hother => ?_, fun c d stream hc hd => ?_, ?_⟩
  · by_cases heq : c = found
    · subst heq
      refine (@setConnection_self _ c _).symm ▸ (h.fed c hmember).dropStream fun hempty => ?_
      dsimp only at hc
      rw [Connection.dropStream_streams, if_pos hempty] at hc
      exact hshaped.nodup.not_mem_erase hc
    · refine (@setConnection_other _ found _ c heq).symm ▸ h.fed c ?_
      dsimp only at hc
      split at hc
      · exact List.mem_of_mem_erase hc
      · exact hc
  · obtain ⟨hbefore, hne⟩ := hothers other found' hother
    obtain ⟨c, hc, hplaced, hcarried⟩ := h.placed other found' hbefore
    have hkept : found'.stream ∈ ((pool.setConnection found
        ((pool.connections found).dropStream state.stream)).connections c).streams := by
      by_cases heq : c = found
      · rw [heq, setConnection_self, Connection.dropStream_streams]
        exact Finset.mem_erase.mpr ⟨hne, heq ▸ hcarried⟩
      · rw [setConnection_other heq]
        exact hcarried
    refine ⟨c, ?_, hplaced, hkept⟩
    dsimp only
    split
    · next hempty =>
        rw [List.mem_erase_of_ne]
        · exact hc
        · rintro rfl
          rw [setConnection_self, hempty] at hkept
          cases hkept
    · exact hc
  · exact h.apart c d stream (hstreams c hc) (hstreams d hd)
  · intro first second state₁ state₂ hfirst hsecond
    exact h.distinct first second state₁ state₂ (hothers first state₁ hfirst).1
      (hothers second state₂ hsecond).1

theorem Delivering.subscribe (h : pool.Delivering) (hshaped : pool.Shaped)
    (haccepts : pool.accepts key stream = true) : (pool.subscribe key stream).Delivering := by
  unfold FeedPool.subscribe
  split
  · next state hget => exact (h.recount hget _).rehandle _ _
  · next hget =>
      simp only [accepts, hget, Option.isSome_none, Bool.false_or, Bool.and_eq_true,
        List.all_eq_true, decide_eq_true_eq] at haccepts
      obtain ⟨hnew, haccepts⟩ := haccepts
      split
      · next hchoose => simp [hchoose] at haccepts
      · next chosen memberId hchoose =>
          rw [hchoose] at haccepts
          exact (h.assignStream hshaped hget hnew hchoose haccepts).rehandle _ _

theorem Delivering.unsubscribe {handle : ℕ} (h : pool.Delivering) (hshaped : pool.Shaped)
    (hstep : pool.unsubscribe handle = some pool') : pool'.Delivering := by
  unfold FeedPool.unsubscribe at hstep
  split at hstep
  · obtain rfl := Option.some.inj hstep
    exact h
  · next key hkey =>
      split at hstep
      · cases hstep
      · next state hget =>
          have hrest := h.rehandle (delete handle pool.handles) pool.nextHandle
          have hrestShaped : { pool with handles := delete handle pool.handles }.Shaped :=
            ⟨hshaped.shaped, hshaped.allocated, hshaped.nodup, hshaped.carrying⟩
          dsimp only at hstep
          split at hstep
          · split at hstep
            · next hmember =>
                obtain ⟨c, -, hplaced, -⟩ := h.placed key state hget
                rw [hmember] at hplaced
                cases hplaced
            · next memberId hmember =>
                obtain rfl := Option.some.inj hstep
                exact hrest.release hrestShaped hget hmember
          · obtain rfl := Option.some.inj hstep
            exact hrest.recount hget _

theorem held_of_member (hshaped : pool.Shaped) (hmember : memberId ∈ pool.members) {socket : ℕ}
    (hsocket : (pool.connections memberId).Unclosed socket) :
    (pool.connections memberId).ws = some socket :=
  ((hshaped.shaped memberId).held socket hsocket).resolve_right fun hnone =>
    (hshaped.carrying memberId).mp hmember hnone.2

theorem step_delivering {label : FeedStep} (h : pool.Delivering) (hshaped : pool.Shaped)
    (horderly : pool.Orderly label) (hstep : pool.step label = some pool') :
    pool'.Delivering := by
  cases label with
  | subscribeKlines symbol interval =>
      obtain rfl := Option.some.inj hstep
      exact h.subscribe hshaped horderly
  | subscribeMiniTicker symbol =>
      obtain rfl := Option.some.inj hstep
      exact h.subscribe hshaped horderly
  | unsubscribe handle => exact h.unsubscribe hshaped hstep
  | opens memberId socket =>
      simp only [step] at hstep
      split at hstep
      · next hstatus =>
          obtain rfl := Option.some.inj hstep
          refine h.setConnection (by simp) fun hmember => ?_
          have hsocket : (pool.connections memberId).Unclosed socket :=
            unclosed_of_status (by simp [hstatus])
          have hws := held_of_member hshaped hmember hsocket
          obtain ⟨s, hs, -⟩ := hsocket
          exact (h.fed memberId hmember).onOpen hws hs (by simpa [socketStatus, hs] using hstatus)
      · cases hstep
  | closes memberId socket =>
      simp only [step] at hstep
      split at hstep
      · cases hstep
      · obtain rfl := Option.some.inj hstep
        exact h.setConnection (by simp) fun _ => Connection.onClose_fed
  | reconnect memberId =>
      simp only [step] at hstep
      split at hstep
      · cases hstep
      · obtain rfl := Option.some.inj hstep
        refine h.setConnection (by simp) fun hmember => ?_
        exact Connection.Fed.connect (h.fed memberId hmember)
  | forceReconnect =>
      obtain rfl := Option.some.inj hstep
      refine h.of_streams (fun c => ?_) fun c hc => ?_
      · split <;> simp
      · rw [if_pos hc]
        exact (h.fed c hc).forceReconnect

/-! ### Runs -/

/-- The property of the feed: an open member whose buffers are flushed is delivered exactly what
it carries, a key is on exactly one member, and no member exceeds the limit or has two sockets. -/
structure NoneLost (pool : FeedPool) : Prop where
  delivered : ∀ c ∈ pool.members, ∀ socket, (pool.connections c).ws = some socket →
    (pool.connections c).isOpen = true → (pool.connections c).pendingSubscribes = ∅ →
    (pool.connections c).pendingUnsubscribes = ∅ →
    ∃ s, (pool.connections c).sockets[socket]? = some s ∧
      s.delivered = (pool.connections c).streams
  placed : ∀ key state, get key pool.keys = some state →
    ∃! c, c ∈ pool.members ∧ state.stream ∈ (pool.connections c).streams
  within : ∀ c, (pool.connections c).streams.card ≤ maxStreamsPerConnection
  single : ∀ c first second, (pool.connections c).Unclosed first →
    (pool.connections c).Unclosed second → first = second

/-- The limit and the single socket hold in every run. -/
theorem member_bounds {pool : FeedPool} (hrun : Reach step (fun _ _ => True) start pool) (c : ℕ) :
    (pool.connections c).streams.card ≤ maxStreamsPerConnection ∧
      ∀ first second, (pool.connections c).Unclosed first →
        (pool.connections c).Unclosed second → first = second := by
  have hshaped : pool.Shaped :=
    hrun.invariant start_shaped fun s label t h _ hstep => step_shaped h hstep
  exact ⟨(hshaped.shaped c).within, (hshaped.shaped c).single⟩

/-- A member on its second socket. -/
theorem reconnected_member_bounded : ∃ pool, Reach step (fun _ _ => True) start pool ∧
    (pool.connections 0).sockets.length = 2 ∧
    (pool.connections 0).streams.card ≤ maxStreamsPerConnection := by
  have hrun : (run step (fun _ _ => true) start
      [.subscribeKlines "BTCUSDT" "1m", .opens 0 0, .closes 0 0, .reconnect 0]).map
        (fun pool => (pool.connections 0).sockets.length) = some 2 := by
    decide +kernel
  obtain ⟨pool, hpool, hend⟩ := Option.map_eq_some_iff.mp hrun
  have hreach : Reach step (fun _ _ => True) start pool := reach_of_run (fun _ _ _ => trivial) hpool
  exact ⟨pool, hreach, hend, (member_bounds hreach 0).1⟩

/-- No stream is lost in a run whose subscribes of new keys find room, a stream of their own and
a member that takes it. -/
theorem feed_never_loses_stream {pool : FeedPool} (hrun : Reach step Orderly start pool) :
    pool.NoneLost := by
  have hkept : pool.Shaped ∧ pool.Delivering :=
    hrun.invariant (P := fun pool => pool.Shaped ∧ pool.Delivering)
      ⟨start_shaped, start_delivering⟩ fun s label t h horderly hstep =>
        ⟨step_shaped h.1 hstep, step_delivering h.2 h.1 horderly hstep⟩
  refine ⟨fun c hc socket hws hopen _ _ => (hkept.2.fed c hc).delivered hws hopen,
    fun key state hget => ?_, fun c => (hkept.1.shaped c).within,
    fun c first second => (hkept.1.shaped c).single first second⟩
  obtain ⟨c, hc, -, hstream⟩ := hkept.2.placed key state hget
  refine ⟨c, ⟨hc, hstream⟩, ?_⟩
  rintro d ⟨-, hd⟩
  exact hkept.2.apart d c state.stream hd hstream

/-- Two keys share a socket; one is given up and taken again while the socket is open, and the
next socket carries both in its url. -/
theorem resubscribed_after_reconnect : ∃ pool, Reach step Orderly start pool ∧
    (pool.connections 0).isOpen = true ∧
    (pool.connections 0).streams = {"btcusdt@kline_1m", "ethusdt@miniTicker"} ∧
    pool.NoneLost := by
  have hrun : (run step orderly start
      [.subscribeKlines "BTCUSDT" "1m", .subscribeMiniTicker "ETHUSDT", .opens 0 0,
        .unsubscribe 0, .subscribeKlines "BTCUSDT" "1m", .forceReconnect, .closes 0 0,
        .reconnect 0, .opens 0 1]).map (fun pool =>
      ((pool.connections 0).isOpen, (pool.connections 0).streams)) =
      some (true, {"btcusdt@kline_1m", "ethusdt@miniTicker"}) := by
    decide +kernel
  obtain ⟨pool, hpool, hend⟩ := Option.map_eq_some_iff.mp hrun
  have hreach : Reach step Orderly start pool := reach_of_run (fun _ _ h => h) hpool
  simp only [Prod.mk.injEq] at hend
  exact ⟨pool, hreach, hend.1, hend.2, feed_never_loses_stream hreach⟩

/-- A key that is given up and taken again while its member waits to reconnect is in the url of
the next socket, and the request to unsubscribe from it is sent once that socket opens. -/
theorem resubscribed_in_backoff : ∃ pool, Reach step (fun _ _ => True) start pool ∧
    pool.members = [0] ∧ (pool.connections 0).ws = some 1 ∧ (pool.connections 0).isOpen = true ∧
    (pool.connections 0).streams = {"btcusdt@kline_1m", "ethusdt@miniTicker"} ∧
    (pool.connections 0).sockets[1]?.map (·.delivered) = some {"ethusdt@miniTicker"} ∧
    ¬ pool.NoneLost := by
  have hrun : (run step (fun _ _ => true) start
      [.subscribeKlines "BTCUSDT" "1m", .subscribeMiniTicker "ETHUSDT", .opens 0 0, .closes 0 0,
        .unsubscribe 0, .subscribeKlines "BTCUSDT" "1m", .opens 0 1]).map (fun pool =>
      (pool.members, pool.connections 0)) =
      some ([0], ⟨some 1, true, ∅, ∅, {"btcusdt@kline_1m", "ethusdt@miniTicker"},
        [⟨{"btcusdt@kline_1m"}, {"btcusdt@kline_1m", "ethusdt@miniTicker"}, .closed⟩,
          ⟨{"btcusdt@kline_1m", "ethusdt@miniTicker"}, {"ethusdt@miniTicker"}, .open⟩], 1⟩) := by
    decide +kernel
  obtain ⟨pool, hpool, hend⟩ := Option.map_eq_some_iff.mp hrun
  obtain ⟨hmembers, hconnection⟩ := Prod.mk.inj hend
  refine ⟨pool, reach_of_run (fun _ _ _ => trivial) hpool, hmembers, by rw [hconnection],
    by rw [hconnection], by rw [hconnection], by rw [hconnection]; rfl, fun hnone => ?_⟩
  obtain ⟨s, hs, hdelivered⟩ := hnone.delivered 0 (by simp [hmembers]) 1 (by rw [hconnection])
    (by rw [hconnection]) (by rw [hconnection]) (by rw [hconnection])
  rw [hconnection] at hs hdelivered
  obtain rfl := Option.some.inj hs
  exact absurd hdelivered (by decide)

end FeedPool

end TradingBot.Binance
