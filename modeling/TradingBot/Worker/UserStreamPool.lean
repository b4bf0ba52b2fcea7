import TradingBot.Lib.InsertionMap
import TradingBot.Lib.LabelledRun

/-!
# The pool of user streams

The pool keeps a socket for every profile it was asked to stream. What it was
asked for is the intent, and what is connected is the map of sockets. Opening
waits for the credentials of the account between looking at that map and
writing it, and the watchdog opens too. A call is a sequence of steps with the
awaits between them, and any number of calls are in flight at once.
-/

namespace TradingBot.Worker

open InsertionMap LabelledRun

structure StreamIntent where
  operatorId : String
  accountId : String
deriving DecidableEq

/-- A socket, closed once the pool or the server has closed it. -/
structure Socket where
  profileId : String
  closed : Bool
deriving DecidableEq

/-- The pool. Sockets are numbered in the order they were made. -/
structure UserStreamPool where
  intended : List (String × StreamIntent)
  conns : List (String × ℕ)
  sockets : List Socket
deriving DecidableEq

namespace UserStreamPool

def empty : UserStreamPool := ⟨[], [], []⟩

def closeSocket (pool : UserStreamPool) (id : ℕ) : UserStreamPool :=
  { pool with sockets := pool.sockets.modify id fun socket => { socket with closed := true } }

def intend (pool : UserStreamPool) (profileId : String) (intent : StreamIntent) :
    UserStreamPool :=
  { pool with intended := set profileId intent pool.intended }

/-- The half of `openInternal` after its await, with credentials at hand. -/
def connect (pool : UserStreamPool) (profileId : String) : UserStreamPool :=
  { pool with
    conns := set profileId pool.sockets.length pool.conns
    sockets := pool.sockets ++ [⟨profileId, false⟩] }

/-- Forget the connection of a profile and close its socket. -/
def drop (pool : UserStreamPool) (profileId : String) : UserStreamPool :=
  match get profileId pool.conns with
  | none => pool
  | some id => { pool with conns := delete profileId pool.conns }.closeSocket id

/-- The intent goes first, and the socket is closed last: a close that throws has done
everything else. -/
def close (pool : UserStreamPool) (profileId : String) : UserStreamPool :=
  { pool with intended := delete profileId pool.intended }.drop profileId

/-- The handler of a socket's close drops the connection only while it is that socket's. -/
def onClose (pool : UserStreamPool) (id : ℕ) (socket : Socket) : UserStreamPool :=
  if get socket.profileId pool.conns = some id then
    { pool with conns := delete socket.profileId pool.conns }
  else pool

def isOpen (pool : UserStreamPool) (profileId : String) : Prop := profileId ∈ keys pool.conns

def intends (pool : UserStreamPool) (profileId : String) : Prop := profileId ∈ keys pool.intended

instance (pool : UserStreamPool) (profileId : String) : Decidable (pool.isOpen profileId) :=
  inferInstanceAs (Decidable (_ ∈ _))

instance (pool : UserStreamPool) (profileId : String) : Decidable (pool.intends profileId) :=
  inferInstanceAs (Decidable (_ ∈ _))

/-- Every socket that is still open is the one its profile is connected by. -/
def Tracked (pool : UserStreamPool) : Prop :=
  ∀ id socket, pool.sockets[id]? = some socket → socket.closed = false →
    get socket.profileId pool.conns = some id

/-- The profile is not connected by a socket that is still open. -/
def free (pool : UserStreamPool) (profileId : String) : Bool :=
  ((get profileId pool.conns).bind (pool.sockets[·]?)).all (·.closed)

/-- Every connection is wanted, or a call is about to see that it is not. -/
def Wanted (pool : UserStreamPool) (pending : String → Prop) : Prop :=
  ∀ profileId, pool.isOpen profileId → pool.intends profileId ∨ pending profileId

variable {pool : UserStreamPool} {profileId other : String} {id : ℕ} {pending : String → Prop}

@[simp]
theorem closeSocket_intended : (pool.closeSocket id).intended = pool.intended := rfl

@[simp]
theorem closeSocket_conns : (pool.closeSocket id).conns = pool.conns := rfl

@[simp]
theorem drop_intended : (pool.drop profileId).intended = pool.intended := by
  unfold drop
  split <;> rfl

@[simp]
theorem close_intended : (pool.close profileId).intended = delete profileId pool.intended := by
  simp [close]

@[simp]
theorem onClose_intended {socket : Socket} : (pool.onClose id socket).intended = pool.intended := by
  unfold onClose
  split <;> rfl

theorem drop_get_self : get profileId (pool.drop profileId).conns = none := by
  unfold drop
  split
  · assumption
  · simp

theorem drop_get_other (hother : other ≠ profileId) :
    get other (pool.drop profileId).conns = get other pool.conns := by
  unfold drop
  split
  · rfl
  · exact get_delete_other hother

theorem drop_isOpen :
    (pool.drop profileId).isOpen other ↔ other ≠ profileId ∧ pool.isOpen other := by
  unfold isOpen
  by_cases heq : other = profileId
  · subst heq
    simp [get_eq_none.mp (@drop_get_self pool other)]
  · rw [← not_iff_not, ← get_eq_none, drop_get_other heq, get_eq_none]
    simp [heq]

theorem close_isOpen :
    (pool.close profileId).isOpen other ↔ other ≠ profileId ∧ pool.isOpen other :=
  drop_isOpen

theorem close_intends :
    (pool.close profileId).intends other ↔ other ≠ profileId ∧ pool.intends other := by
  simp [intends]

theorem intend_intends {intent : StreamIntent} :
    (pool.intend profileId intent).intends other ↔ other = profileId ∨ pool.intends other :=
  mem_keys_set

theorem connect_isOpen :
    (pool.connect profileId).isOpen other ↔ other = profileId ∨ pool.isOpen other :=
  mem_keys_set

theorem onClose_isOpen {socket : Socket} (hopen : (pool.onClose id socket).isOpen other) :
    pool.isOpen other := by
  unfold onClose at hopen
  split at hopen
  · exact (mem_keys_delete.mp hopen).2
  · exact hopen

/-! ### What each operation keeps -/

theorem open_of_closeSocket {found : ℕ} {socket : Socket}
    (hsocket : (pool.closeSocket id).sockets[found]? = some socket)
    (hopen : socket.closed = false) : id ≠ found ∧ pool.sockets[found]? = some socket := by
  simp only [closeSocket, List.getElem?_modify] at hsocket
  obtain ⟨before, hbefore, rfl⟩ := Option.map_eq_some_iff.mp hsocket
  by_cases hid : id = found
  · simp [hid] at hopen
  · simpa [hid] using hbefore

theorem Tracked.closeSocket (h : pool.Tracked) (id : ℕ) : (pool.closeSocket id).Tracked := by
  intro found socket hsocket hopen
  exact h found socket (open_of_closeSocket hsocket hopen).2 hopen

theorem Tracked.drop (h : pool.Tracked) (profileId : String) : (pool.drop profileId).Tracked := by
  unfold UserStreamPool.drop
  split
  · exact h
  · next id hget =>
      intro found socket hsocket hopen
      obtain ⟨hid, hbefore⟩ := open_of_closeSocket hsocket hopen
      have hconn := h found socket hbefore hopen
      have hother : socket.profileId ≠ profileId := by
        rintro rfl
        rw [hget] at hconn
        exact hid (Option.some.inj hconn)
      simpa [get_delete_other hother] using hconn

theorem Tracked.close (h : pool.Tracked) (profileId : String) : (pool.close profileId).Tracked :=
  @Tracked.drop { pool with intended := delete profileId pool.intended } h profileId

/-- A profile none of whose sockets is open can be connected. -/
theorem Tracked.connect (h : pool.Tracked) (hfree : pool.free profileId = true) :
    (pool.connect profileId).Tracked := by
  intro found socket hsocket hopen
  simp only [UserStreamPool.connect] at hsocket ⊢
  rcases Nat.lt_trichotomy found pool.sockets.length with hlt | heq | hgt
  · rw [List.getElem?_append_left hlt] at hsocket
    have hconn := h found socket hsocket hopen
    have hother : socket.profileId ≠ profileId := by
      rintro rfl
      simp [free, hconn, hsocket, hopen] at hfree
    rw [get_set_other hother, hconn]
  · subst heq
    simp only [List.getElem?_concat_length, Option.some.injEq] at hsocket
    subst hsocket
    exact get_set_self
  · rw [List.getElem?_eq_none (by simp; omega)] at hsocket
    cases hsocket

theorem Tracked.onClose (h : pool.Tracked) {socket : Socket}
    (hsocket : pool.sockets[id]? = some socket) (hclosed : socket.closed = true) :
    (pool.onClose id socket).Tracked := by
  unfold UserStreamPool.onClose
  split
  · next hcurrent =>
      intro found other hother hopen
      have hconn := h found other hother hopen
      have hprofile : other.profileId ≠ socket.profileId := by
        intro heq
        rw [heq, hcurrent] at hconn
        obtain rfl := Option.some.inj hconn
        rw [hsocket] at hother
        obtain rfl := Option.some.inj hother
        rw [hclosed] at hopen
        cases hopen
      rw [get_delete_other hprofile, hconn]
  · exact h

theorem Wanted.mono {pending' : String → Prop} (h : pool.Wanted pending)
    (hpending : ∀ profileId, pending profileId → pending' profileId) : pool.Wanted pending' :=
  fun profileId hopen => (h profileId hopen).imp_right (hpending profileId)

theorem Wanted.intend (h : pool.Wanted pending) (profileId : String) (intent : StreamIntent) :
    (pool.intend profileId intent).Wanted pending :=
  fun profileId hopen => (h profileId hopen).imp_left fun hintends =>
    intend_intends.mpr (.inr hintends)

theorem Wanted.connect (h : pool.Wanted pending)
    (hwanted : pool.intends profileId ∨ pending profileId) :
    (pool.connect profileId).Wanted pending := by
  intro other hopen
  rcases connect_isOpen.mp hopen with rfl | hopen
  · exact hwanted
  · exact h other hopen

/-- What was about to be checked at the dropped profile no longer needs a check. -/
theorem Wanted.drop {pending' : String → Prop} (h : pool.Wanted pending)
    (hpending : ∀ other, other ≠ profileId → pending other → pending' other) :
    (pool.drop profileId).Wanted pending' := by
  intro other hopen
  obtain ⟨hother, hopen⟩ := drop_isOpen.mp hopen
  rcases h other hopen with hintends | hwaiting
  · left
    simpa [intends] using hintends
  · exact .inr (hpending other hother hwaiting)

theorem Wanted.close (h : pool.Wanted pending) (profileId : String) :
    (pool.close profileId).Wanted pending := by
  intro other hopen
  obtain ⟨hother, hopen⟩ := close_isOpen.mp hopen
  exact (h other hopen).imp_left fun hintends => close_intends.mpr ⟨hother, hintends⟩

theorem Wanted.onClose (h : pool.Wanted pending) (id : ℕ) (socket : Socket) :
    (pool.onClose id socket).Wanted pending := by
  intro other hopen
  rw [intends, onClose_intended]
  exact h other (onClose_isOpen hopen)

end UserStreamPool

/-! ### The calls in flight -/

/-- A call, by what it does next. -/
inductive PoolCall where
  /-- `open` waits for the credentials. -/
  | opening (profileId : String)
  /-- `open` is back from `openInternal`. -/
  | opened (profileId : String)
  | resyncing
  /-- A pass of the watchdog, with the rest of its snapshot of the intent. -/
  | walking (rest : List (String × StreamIntent))
  /-- The pass waits for the credentials. -/
  | reopening (profileId : String) (rest : List (String × StreamIntent))
  /-- The pass waits for the handlers of a resync and of a silent stream. -/
  | verifying (rest : List (String × StreamIntent))
  | closingAll (rest : List String)
deriving DecidableEq

/-- The call is an `open` of the profile that has yet to check the intent. -/
def PoolCall.Opens (call : PoolCall) (profileId : String) : Prop :=
  call = .opening profileId ∨ call = .opened profileId

/-- What the credentials come back as. -/
inductive CredentialsAnswer where
  | granted
  | absent
  /-- They cannot be read, or no socket can be made with them. -/
  | failed

/-- What the clocks of a connection say at a pass of the watchdog. -/
inductive Liveness where
  | live
  | idle
  | silent

structure PoolWorld where
  pool : UserStreamPool
  calls : List (ℕ × PoolCall)
  nextCall : ℕ
deriving DecidableEq

inductive PoolStep where
  | open (profileId : String) (intent : StreamIntent)
  | close (profileId : String)
  | closeAll
  | watchdog
  | credentials (call : ℕ) (answer : CredentialsAnswer)
  | visit (call : ℕ) (liveness : Liveness)
  | proceed (call : ℕ)
  | serverClose (socket : ℕ)
  | onClose (socket : ℕ)

namespace PoolWorld

def start : PoolWorld := ⟨.empty, [], 0⟩

def begin (w : PoolWorld) (pool : UserStreamPool) (next : PoolCall) : PoolWorld :=
  { pool, calls := set w.nextCall next w.calls, nextCall := w.nextCall + 1 }

def resume (w : PoolWorld) (call : ℕ) (pool : UserStreamPool) (next : PoolCall) : PoolWorld :=
  { w with pool, calls := set call next w.calls }

def finish (w : PoolWorld) (call : ℕ) (pool : UserStreamPool) : PoolWorld :=
  { w with pool, calls := delete call w.calls }

/-- `openInternal` from its await on. -/
def credentials (w : PoolWorld) (call : ℕ) (answer : CredentialsAnswer) : Option PoolWorld :=
  match get call w.calls, answer with
  | some (.opening profileId), .granted =>
      some (w.resume call (w.pool.connect profileId) (.opened profileId))
  | some (.opening profileId), .absent => some (w.resume call w.pool (.opened profileId))
  | some (.opening _), .failed => some (w.finish call w.pool)
  | some (.reopening profileId rest), .granted =>
      some (w.resume call (w.pool.connect profileId) (.verifying rest))
  | some (.reopening _ rest), _ => some (w.resume call w.pool (.verifying rest))
  | _, _ => none

/-- One round of `runWatchdogOnce`. -/
def visit (w : PoolWorld) (call : ℕ) (liveness : Liveness) : Option PoolWorld :=
  match get call w.calls with
  | some (.walking []) => some (w.finish call w.pool)
  | some (.walking ((profileId, _) :: rest)) =>
      if w.pool.isOpen profileId then
        match liveness with
        | .live => some (w.resume call w.pool (.walking rest))
        -- both ways the connection is torn down first
        | .idle | .silent =>
            some (w.resume call (w.pool.drop profileId) (.reopening profileId rest))
      else some (w.resume call w.pool (.reopening profileId rest))
  | _ => none

def proceed (w : PoolWorld) (call : ℕ) : Option PoolWorld :=
  match get call w.calls with
  | some (.opened profileId) =>
      if w.pool.intends profileId then some (w.resume call w.pool .resyncing)
      else some (w.finish call (w.pool.drop profileId))
  | some .resyncing => some (w.finish call w.pool)
  | some (.verifying rest) => some (w.resume call w.pool (.walking rest))
  | some (.closingAll []) => some (w.finish call w.pool)
  | some (.closingAll (profileId :: rest)) =>
      some (w.resume call (w.pool.close profileId) (.closingAll rest))
  | _ => none

def step (w : PoolWorld) : PoolStep → Option PoolWorld
  | .open profileId intent =>
      let pool := w.pool.intend profileId intent
      some (w.begin pool (if pool.isOpen profileId then .opened profileId else .opening profileId))
  | .close profileId => some { w with pool := w.pool.close profileId }
  | .closeAll => some (w.begin w.pool (.closingAll (keys w.pool.intended)))
  | .watchdog => some (w.begin w.pool (.walking w.pool.intended))
  | .credentials call answer => w.credentials call answer
  | .visit call liveness => w.visit call liveness
  | .proceed call => w.proceed call
  | .serverClose id => some { w with pool := w.pool.closeSocket id }
  | .onClose id =>
      match w.pool.sockets[id]? with
      | some socket =>
          if socket.closed then some { w with pool := w.pool.onClose id socket } else none
      | none => none

/-- An `open` of the profile is about to check the intent. -/
def Checking (calls : List (ℕ × PoolCall)) (profileId : String) : Prop :=
  ∃ call, get call calls = some (.opened profileId)

/-- The credentials of a profile find no open socket of it in the map, and those a pass of the
watchdog waited for find the profile still intended. -/
def orderly (w : PoolWorld) : PoolStep → Bool
  | .credentials call .granted =>
      match get call w.calls with
      | some (.opening profileId) => w.pool.free profileId
      | some (.reopening profileId _) => w.pool.intends profileId && w.pool.free profileId
      | _ => true
  | _ => true

def Orderly (w : PoolWorld) (label : PoolStep) : Prop := w.orderly label = true

/-- What a run keeps. -/
structure Kept (w : PoolWorld) : Prop where
  tracked : w.pool.Tracked
  wanted : w.pool.Wanted (Checking w.calls)
  numbered : ∀ call ∈ keys w.calls, call < w.nextCall

variable {w : PoolWorld} {pool : UserStreamPool} {next last : PoolCall} {call : ℕ}
  {profileId : String}

theorem start_kept : start.Kept where
  tracked := nofun
  wanted := nofun
  numbered := nofun

theorem checking_set (hcall : get call w.calls = some last) (hlast : last ≠ .opened profileId)
    (hchecking : Checking w.calls profileId) : Checking (set call next w.calls) profileId := by
  obtain ⟨other, hother⟩ := hchecking
  refine ⟨other, ?_⟩
  rw [get_set_other, hother]
  rintro rfl
  rw [hcall] at hother
  exact hlast (Option.some.inj hother)

theorem checking_delete (hcall : get call w.calls = some last) (hlast : last ≠ .opened profileId)
    (hchecking : Checking w.calls profileId) : Checking (delete call w.calls) profileId := by
  obtain ⟨other, hother⟩ := hchecking
  refine ⟨other, ?_⟩
  rw [get_delete_other, hother]
  rintro rfl
  rw [hcall] at hother
  exact hlast (Option.some.inj hother)

theorem Kept.begin (h : w.Kept) (htracked : pool.Tracked)
    (hwanted : pool.Wanted (Checking w.calls)) : (w.begin pool next).Kept where
  tracked := htracked
  wanted := by
    refine hwanted.mono fun profileId => ?_
    rintro ⟨other, hother⟩
    refine ⟨other, ?_⟩
    have hless := h.numbered other (mem_keys_of_get hother)
    simpa [PoolWorld.begin, get_set_other (Nat.ne_of_lt hless)] using hother
  numbered := by
    intro call hcall
    rcases mem_keys_set.mp hcall with rfl | hcall
    · exact Nat.lt_succ_self _
    · exact Nat.lt_succ_of_lt (h.numbered call hcall)

theorem Kept.resume (h : w.Kept) (hcall : get call w.calls = some last)
    (htracked : pool.Tracked) (hwanted : pool.Wanted (Checking (set call next w.calls))) :
    (w.resume call pool next).Kept where
  tracked := htracked
  wanted := hwanted
  numbered := by
    intro other hother
    rcases mem_keys_set.mp hother with rfl | hother
    · exact h.numbered other (mem_keys_of_get hcall)
    · exact h.numbered other hother

theorem Kept.finish (h : w.Kept) (htracked : pool.Tracked)
    (hwanted : pool.Wanted (Checking (delete call w.calls))) : (w.finish call pool).Kept where
  tracked := htracked
  wanted := hwanted
  numbered := fun other hother => h.numbered other (mem_keys_delete.mp hother).2

theorem credentials_kept {w' : PoolWorld} {answer : CredentialsAnswer} (h : w.Kept)
    (horderly : w.Orderly (.credentials call answer))
    (hstep : w.credentials call answer = some w') : w'.Kept := by
  unfold credentials at hstep
  split at hstep
  · next profileId hcall =>
      obtain rfl := Option.some.inj hstep
      have hfree : w.pool.free profileId = true := by
        simpa [Orderly, orderly, hcall] using horderly
      refine h.resume hcall (h.tracked.connect hfree) ?_
      refine (h.wanted.mono fun other => checking_set hcall (by simp)).connect ?_
      exact .inr ⟨call, get_set_self⟩
  · next profileId hcall =>
      obtain rfl := Option.some.inj hstep
      exact h.resume hcall h.tracked (h.wanted.mono fun other => checking_set hcall (by simp))
  · next profileId hcall =>
      obtain rfl := Option.some.inj hstep
      exact h.finish h.tracked (h.wanted.mono fun other => checking_delete hcall (by simp))
  · next profileId rest hcall =>
      obtain rfl := Option.some.inj hstep
      have hfound : w.pool.intends profileId ∧ w.pool.free profileId = true := by
        simpa [Orderly, orderly, hcall] using horderly
      obtain ⟨hintends, hfree⟩ := hfound
      refine h.resume hcall (h.tracked.connect hfree) ?_
      refine (h.wanted.mono fun other => checking_set hcall (by simp)).connect ?_
      exact .inl hintends
  · next profileId rest hcall _ =>
      obtain rfl := Option.some.inj hstep
      exact h.resume hcall h.tracked (h.wanted.mono fun other => checking_set hcall (by simp))
  · cases hstep

theorem visit_kept {w' : PoolWorld} {liveness : Liveness} (h : w.Kept)
    (hstep : w.visit call liveness = some w') : w'.Kept := by
  unfold visit at hstep
  split at hstep
  · next hcall =>
      obtain rfl := Option.some.inj hstep
      exact h.finish h.tracked (h.wanted.mono fun other => checking_delete hcall (by simp))
  · next profileId _ rest hcall =>
      have hchecking : ∀ other, Checking w.calls other →
          ∀ next, Checking (set call next w.calls) other :=
        fun other hchecking next => checking_set hcall (by simp) hchecking
      split at hstep
      · cases liveness with
        | live =>
            obtain rfl := Option.some.inj hstep
            refine h.resume hcall h.tracked (h.wanted.mono ?_)
            exact fun other hother => hchecking other hother _
        | idle | silent =>
            obtain rfl := Option.some.inj hstep
            refine h.resume hcall (h.tracked.drop profileId) ?_
            exact h.wanted.drop fun other _ hother => hchecking other hother _
      · obtain rfl := Option.some.inj hstep
        exact h.resume hcall h.tracked (h.wanted.mono fun other hother => hchecking other hother _)
  · cases hstep

theorem proceed_kept {w' : PoolWorld} (h : w.Kept) (hstep : w.proceed call = some w') :
    w'.Kept := by
  unfold proceed at hstep
  split at hstep
  · next profileId hcall =>
      split at hstep
      · next hintends =>
          obtain rfl := Option.some.inj hstep
          refine h.resume hcall h.tracked ?_
          intro other hopen
          by_cases heq : other = profileId
          · exact .inl (heq ▸ hintends)
          · exact (h.wanted other hopen).imp_right (checking_set hcall (by simpa using Ne.symm heq))
      · obtain rfl := Option.some.inj hstep
        refine h.finish (h.tracked.drop profileId) (h.wanted.drop ?_)
        intro other hother
        exact checking_delete hcall (by simpa using Ne.symm hother)
  · next hcall =>
      obtain rfl := Option.some.inj hstep
      exact h.finish h.tracked (h.wanted.mono fun other => checking_delete hcall (by simp))
  · next rest hcall =>
      obtain rfl := Option.some.inj hstep
      exact h.resume hcall h.tracked (h.wanted.mono fun other => checking_set hcall (by simp))
  · next hcall =>
      obtain rfl := Option.some.inj hstep
      exact h.finish h.tracked (h.wanted.mono fun other => checking_delete hcall (by simp))
  · next profileId rest hcall =>
      obtain rfl := Option.some.inj hstep
      refine h.resume hcall (h.tracked.close profileId) ?_
      exact (h.wanted.mono fun other => checking_set hcall (by simp)).close profileId
  · cases hstep

theorem step_kept {w' : PoolWorld} {label : PoolStep} (h : w.Kept) (horderly : w.Orderly label)
    (hstep : w.step label = some w') : w'.Kept := by
  cases label with
  | «open» profileId intent =>
      obtain rfl := Option.some.inj hstep
      exact h.begin h.tracked (h.wanted.intend profileId intent)
  | close profileId =>
      obtain rfl := Option.some.inj hstep
      exact ⟨h.tracked.close profileId, h.wanted.close profileId, h.numbered⟩
  | closeAll =>
      obtain rfl := Option.some.inj hstep
      exact h.begin h.tracked h.wanted
  | watchdog =>
      obtain rfl := Option.some.inj hstep
      exact h.begin h.tracked h.wanted
  | credentials call answer => exact credentials_kept h horderly hstep
  | visit call liveness => exact visit_kept h hstep
  | proceed call => exact proceed_kept h hstep
  | serverClose id =>
      obtain rfl := Option.some.inj hstep
      exact ⟨h.tracked.closeSocket id, h.wanted, h.numbered⟩
  | onClose id =>
      simp only [step] at hstep
      split at hstep
      · next socket hsocket =>
          split at hstep
          · next hclosed =>
              obtain rfl := Option.some.inj hstep
              exact ⟨h.tracked.onClose hsocket hclosed, h.wanted.onClose id socket, h.numbered⟩
          · cases hstep
      · cases hstep

/-! ### After a close -/

/-- The profile is not intended, and only calls numbered below `bound` open it. -/
structure Revoked (w : PoolWorld) (profileId : String) (bound : ℕ) : Prop where
  revoked : ¬ w.pool.intends profileId
  earlier : ∀ call next, get call w.calls = some next → next.Opens profileId → call < bound

variable {bound : ℕ}

theorem Revoked.begin (h : w.Revoked profileId bound)
    (hpool : pool.intends profileId → w.pool.intends profileId)
    (hnext : ¬ next.Opens profileId) : (w.begin pool next).Revoked profileId bound where
  revoked := fun hintends => h.revoked (hpool hintends)
  earlier := by
    intro call found hcall hopens
    by_cases heq : call = w.nextCall
    · subst heq
      rw [PoolWorld.begin, get_set_self] at hcall
      obtain rfl := Option.some.inj hcall
      exact absurd hopens hnext
    · rw [PoolWorld.begin, get_set_other heq] at hcall
      exact h.earlier call found hcall hopens

theorem Revoked.resume (h : w.Revoked profileId bound) (hcall : get call w.calls = some last)
    (hpool : pool.intends profileId → w.pool.intends profileId)
    (hnext : next.Opens profileId → last.Opens profileId) :
    (w.resume call pool next).Revoked profileId bound where
  revoked := fun hintends => h.revoked (hpool hintends)
  earlier := by
    intro other found hother hopens
    by_cases heq : other = call
    · subst heq
      rw [PoolWorld.resume, get_set_self] at hother
      obtain rfl := Option.some.inj hother
      exact h.earlier other last hcall (hnext hopens)
    · rw [PoolWorld.resume, get_set_other heq] at hother
      exact h.earlier other found hother hopens

theorem Revoked.finish (h : w.Revoked profileId bound)
    (hpool : pool.intends profileId → w.pool.intends profileId) :
    (w.finish call pool).Revoked profileId bound where
  revoked := fun hintends => h.revoked (hpool hintends)
  earlier := by
    intro other found hother hopens
    by_cases heq : other = call
    · subst heq
      rw [PoolWorld.finish, get_delete_self] at hother
      cases hother
    · rw [PoolWorld.finish, get_delete_other heq] at hother
      exact h.earlier other found hother hopens

theorem credentials_revoked {w' : PoolWorld} {answer : CredentialsAnswer}
    (h : w.Revoked profileId bound) (hstep : w.credentials call answer = some w') :
    w'.Revoked profileId bound := by
  unfold credentials at hstep
  split at hstep
  · next hcall =>
      obtain rfl := Option.some.inj hstep
      exact h.resume hcall id (by simp [PoolCall.Opens])
  · next hcall =>
      obtain rfl := Option.some.inj hstep
      exact h.resume hcall id (by simp [PoolCall.Opens])
  · obtain rfl := Option.some.inj hstep
    exact h.finish id
  · next hcall =>
      obtain rfl := Option.some.inj hstep
      exact h.resume hcall id (by simp [PoolCall.Opens])
  · next hcall _ =>
      obtain rfl := Option.some.inj hstep
      exact h.resume hcall id (by simp [PoolCall.Opens])
  · cases hstep

theorem visit_revoked {w' : PoolWorld} {liveness : Liveness} (h : w.Revoked profileId bound)
    (hstep : w.visit call liveness = some w') : w'.Revoked profileId bound := by
  unfold visit at hstep
  split at hstep
  · obtain rfl := Option.some.inj hstep
    exact h.finish id
  · next other _ rest hcall =>
      split at hstep
      · cases liveness with
        | live =>
            obtain rfl := Option.some.inj hstep
            exact h.resume hcall id (by simp [PoolCall.Opens])
        | idle | silent =>
            obtain rfl := Option.some.inj hstep
            exact h.resume hcall (by simp [UserStreamPool.intends]) (by simp [PoolCall.Opens])
      · obtain rfl := Option.some.inj hstep
        exact h.resume hcall id (by simp [PoolCall.Opens])
  · cases hstep

theorem proceed_revoked {w' : PoolWorld} (h : w.Revoked profileId bound)
    (hstep : w.proceed call = some w') : w'.Revoked profileId bound := by
  unfold proceed at hstep
  split at hstep
  · next hcall =>
      split at hstep
      · obtain rfl := Option.some.inj hstep
        exact h.resume hcall id (by simp [PoolCall.Opens])
      · obtain rfl := Option.some.inj hstep
        exact h.finish (by simp [UserStreamPool.intends])
  · obtain rfl := Option.some.inj hstep
    exact h.finish id
  · next hcall =>
      obtain rfl := Option.some.inj hstep
      exact h.resume hcall id (by simp [PoolCall.Opens])
  · obtain rfl := Option.some.inj hstep
    exact h.finish id
  · next hcall =>
      obtain rfl := Option.some.inj hstep
      refine h.resume hcall ?_ (by simp [PoolCall.Opens])
      exact fun hintends => (UserStreamPool.close_intends.mp hintends).2
  · cases hstep

theorem step_revoked {w' : PoolWorld} {label : PoolStep} (h : w.Revoked profileId bound)
    (hlabel : ∀ intent, label ≠ .open profileId intent) (hstep : w.step label = some w') :
    w'.Revoked profileId bound := by
  cases label with
  | «open» other intent =>
      obtain rfl := Option.some.inj hstep
      have hother : profileId ≠ other := by
        rintro rfl
        exact hlabel intent rfl
      refine h.begin (fun hintends => ?_) ?_
      · exact (UserStreamPool.intend_intends.mp hintends).resolve_left hother
      · split <;> simp [PoolCall.Opens, hother.symm]
  | close other =>
      obtain rfl := Option.some.inj hstep
      refine ⟨fun hintends => h.revoked ?_, h.earlier⟩
      exact (UserStreamPool.close_intends.mp hintends).2
  | closeAll =>
      obtain rfl := Option.some.inj hstep
      exact h.begin id (by simp [PoolCall.Opens])
  | watchdog =>
      obtain rfl := Option.some.inj hstep
      exact h.begin id (by simp [PoolCall.Opens])
  | credentials call answer => exact credentials_revoked h hstep
  | visit call liveness => exact visit_revoked h hstep
  | proceed call => exact proceed_revoked h hstep
  | serverClose id =>
      obtain rfl := Option.some.inj hstep
      exact ⟨h.revoked, h.earlier⟩
  | onClose id =>
      simp only [step] at hstep
      split at hstep
      · split at hstep
        · obtain rfl := Option.some.inj hstep
          refine ⟨fun hintends => h.revoked ?_, h.earlier⟩
          simpa [UserStreamPool.intends] using hintends
        · cases hstep
      · cases hstep

/-- A close numbers what opens the profile below the calls that come after it. -/
theorem Kept.close_revoked (h : w.Kept) :
    { w with pool := w.pool.close profileId }.Revoked profileId w.nextCall where
  revoked := by simp [UserStreamPool.close_intends]
  earlier := fun call _ hcall _ => h.numbered call (mem_keys_of_get hcall)

/-! ### What a run shows -/

/-- Every connection is wanted, and every open socket is a connection, so that a profile has
at most one. -/
structure Sound (pool : UserStreamPool) : Prop where
  intended : ∀ profileId, pool.isOpen profileId → pool.intends profileId
  tracked : pool.Tracked

/-- In a run whose openings find what they rely on, the pool is sound whenever no call is in
flight, and a closed profile that is not opened again has no open socket once the calls in
flight at its close are over. -/
theorem one_socket_per_profile {w : PoolWorld} (hrun : Reach step Orderly start w) :
    (w.calls = [] → Sound w.pool) ∧
      ∀ profileId closed t, w.step (.close profileId) = some closed →
        Reach step (fun w label => w.Orderly label ∧ ∀ intent, label ≠ .open profileId intent)
          closed t →
        (∀ call ∈ keys t.calls, closed.nextCall ≤ call) →
        ∀ socket ∈ t.pool.sockets, socket.profileId = profileId → socket.closed = true := by
  have hkept : w.Kept :=
    hrun.invariant start_kept fun s label t hkept horderly hstep => step_kept hkept horderly hstep
  refine ⟨fun hquiet => ⟨fun profileId hopen => ?_, hkept.tracked⟩, ?_⟩
  · rcases hkept.wanted profileId hopen with hintends | ⟨call, hcall⟩
    · exact hintends
    · rw [hquiet] at hcall
      cases hcall
  · intro profileId closed t hclose hlater hover socket hsocket hprofile
    obtain rfl := Option.some.inj hclose
    have hend : t.Kept ∧ t.Revoked profileId w.nextCall := by
      have hclosed : { w with pool := w.pool.close profileId }.Kept :=
        ⟨hkept.tracked.close profileId, hkept.wanted.close profileId, hkept.numbered⟩
      refine hlater.invariant (P := fun t => t.Kept ∧ t.Revoked profileId w.nextCall)
        ⟨hclosed, hkept.close_revoked⟩ ?_
      rintro s label t ⟨hkept, hrevoked⟩ ⟨horderly, hlabel⟩ hstep
      exact ⟨step_kept hkept horderly hstep, step_revoked hrevoked hlabel hstep⟩
    by_contra hopen
    rw [Bool.not_eq_true] at hopen
    obtain ⟨id, hid⟩ := List.getElem?_of_mem hsocket
    have hconn := hend.1.tracked id socket hid hopen
    rw [hprofile] at hconn
    rcases hend.1.wanted profileId (mem_keys_of_get hconn) with hintends | ⟨call, hcall⟩
    · exact hend.2.revoked hintends
    · have hbefore := hend.2.earlier call _ hcall (.inr rfl)
      have hafter := hover call (mem_keys_of_get hcall)
      exact absurd hbefore (Nat.not_lt.mpr hafter)

/-- A profile is opened, its server closes the socket, the watchdog opens another, and a close
ends that one. -/
theorem reopened_then_closed : ∃ w t, Reach step Orderly start w ∧
    w.pool.sockets = [⟨"p", true⟩, ⟨"p", false⟩] ∧ Sound w.pool ∧
    w.step (.close "p") = some t ∧ ∀ socket ∈ t.pool.sockets, socket.closed = true := by
  have hrun : run step orderly start
      [.open "p" ⟨"o", "a"⟩, .credentials 0 .granted, .proceed 0, .proceed 0, .serverClose 0,
        .onClose 0, .watchdog, .visit 1 .live, .credentials 1 .granted, .proceed 1,
        .visit 1 .live] =
      some ⟨⟨[("p", ⟨"o", "a"⟩)], [("p", 1)], [⟨"p", true⟩, ⟨"p", false⟩]⟩, [], 2⟩ := by
    decide +kernel
  have hreach : Reach step Orderly start _ := reach_of_run (fun _ _ h => h) hrun
  obtain ⟨hsound, hclosed⟩ := one_socket_per_profile hreach
  refine ⟨_, _, hreach, rfl, hsound rfl, rfl, fun socket hsocket => ?_⟩
  refine hclosed "p" _ _ rfl .refl nofun socket hsocket ?_
  have hmade : ∀ socket ∈ [Socket.mk "p" true, ⟨"p", true⟩], socket.profileId = "p" := by simp
  exact hmade socket hsocket

/-- A close while a pass of the watchdog waits for credentials leaves the socket that the pass
then makes, and two openings that wait at once leave the first of their sockets. -/
theorem closed_profile_streamed :
    (∃ w, Reach step (fun _ _ => True) start w ∧ w.calls = [] ∧
      w.pool.sockets = [⟨"p", true⟩, ⟨"p", false⟩] ∧ ¬ w.pool.intends "p" ∧ ¬ Sound w.pool) ∧
    ∃ w, Reach step (fun _ _ => True) start w ∧ w.calls = [] ∧
      w.pool.sockets = [⟨"p", false⟩, ⟨"p", false⟩] ∧ ¬ Sound w.pool := by
  have hrevoked : run step (fun _ _ => true) start
      [.open "p" ⟨"o", "a"⟩, .credentials 0 .granted, .proceed 0, .proceed 0, .serverClose 0,
        .onClose 0, .watchdog, .visit 1 .live, .close "p", .credentials 1 .granted, .proceed 1,
        .visit 1 .live] =
      some ⟨⟨[], [("p", 1)], [⟨"p", true⟩, ⟨"p", false⟩]⟩, [], 2⟩ := by
    decide +kernel
  have htwice : run step (fun _ _ => true) start
      [.open "p" ⟨"o", "a"⟩, .open "p" ⟨"o", "a"⟩, .credentials 0 .granted,
        .credentials 1 .granted, .proceed 0, .proceed 0, .proceed 1, .proceed 1] =
      some ⟨⟨[("p", ⟨"o", "a"⟩)], [("p", 1)], [⟨"p", false⟩, ⟨"p", false⟩]⟩, [], 2⟩ := by
    decide +kernel
  refine ⟨⟨_, reach_of_run (fun _ _ _ => trivial) hrevoked, rfl, rfl, by decide, ?_⟩,
    ⟨_, reach_of_run (fun _ _ _ => trivial) htwice, rfl, rfl, ?_⟩⟩
  · intro hsound
    exact absurd (hsound.intended "p" (by decide)) (by decide)
  · intro hsound
    exact absurd (hsound.tracked 0 ⟨"p", false⟩ rfl rfl) (by decide)

end PoolWorld

end TradingBot.Worker
