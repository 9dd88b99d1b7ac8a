import Mathlib.Data.Multiset.Filter
import Mathlib.Data.Multiset.Range
import TorrentServer.Library.Runs

namespace TorrentServer.ConnectionPool

open TorrentServer.Library.Runs

abbrev Connection := Nat

/-- The value `get_mysql_conn` leaves in its parameter `flag`: 0 for a connection
of the pool, 1 for one opened on demand. -/
inductive Flag
  | pooled
  | manual
deriving DecidableEq

/-- `none` is the null pointer: the pool was empty and `mysql_bytetrade_init` failed. -/
def getMysqlConn (dequeued connected : Bool) : Option Flag :=
  if dequeued then some .pooled
  else if connected then some .manual
  else none

inductive Caller
  | getCreateHistory
  | getPaymentHistory
  | mysqlQueueExeBatch
  | mysqlQueueExe
deriving DecidableEq

def Caller.isHistory : Caller → Bool
  | .getCreateHistory | .getPaymentHistory => true
  | .mysqlQueueExeBatch | .mysqlQueueExe => false

/-- A running call with the connection it holds. A history request has come past
`mysql_real_query` when `answered` is set. -/
structure Call where
  caller : Caller
  conn : Connection
  flag : Flag
  answered : Bool := false
deriving DecidableEq

/-- `opened` counts all connections ever opened. -/
structure Pool where
  queue : Multiset Connection := 0
  running : Multiset Call := 0
  closed : Multiset Connection := 0
  opened : Nat := 0

def Pool.held (p : Pool) : Multiset Connection :=
  p.running.map Call.conn

/-- The loop of `mysql_conn_pool_init` over the outcomes of its connects. It leaves
the loop at the first that fails, and its caller goes on with the connections
made so far: it takes only a negative return value for an error. -/
def mysqlConnPoolInit : List Bool → Pool → Pool
  | true :: outcomes, p =>
      mysqlConnPoolInit outcomes { p with queue := p.opened ::ₘ p.queue, opened := p.opened + 1 }
  | _, p => p

inductive Event
  | enter (caller : Caller) (taken : Option Connection) (connected : Bool)
  | query (call : Call) (ok : Bool)
  | leave (call : Call)
deriving DecidableEq

/-- `try_dequeue` yields any connection of the pool, and none only from an empty
pool. -/
def Pool.enter (p : Pool) (caller : Caller) (connected : Bool) : Option Connection → Option Pool
  | some conn =>
      if conn ∈ p.queue then
        (getMysqlConn true connected).map fun flag =>
          { p with
            queue := p.queue.erase conn
            running := { caller := caller, conn := conn, flag := flag } ::ₘ p.running }
      else none
  | none =>
      if p.queue = 0 then
        match getMysqlConn false connected with
        | some flag =>
            some
              { p with
                running := { caller := caller, conn := p.opened, flag := flag } ::ₘ p.running
                opened := p.opened + 1 }
        | none => some p
      else none

/-- A history request whose query fails returns at once, without
`release_mysql_conn`; the executor repeats its statement. Rows that are read
without throwing lead to the end of the request. -/
def Pool.query (p : Pool) (call : Call) (ok : Bool) : Option Pool :=
  if call ∈ p.running then
    if call.caller.isHistory then
      if call.answered then none
      else if ok then
        some { p with running := { call with answered := true } ::ₘ p.running.erase call }
      else some { p with running := p.running.erase call }
    else some p
  else none

def Pool.releaseMysqlConn (p : Pool) (conn : Connection) : Flag → Pool
  | .pooled => { p with queue := conn ::ₘ p.queue }
  | .manual => { p with closed := conn ::ₘ p.closed }

def Pool.leave (p : Pool) (call : Call) : Option Pool :=
  if call ∈ p.running ∧ (call.caller.isHistory = true → call.answered = true) then
    some { p.releaseMysqlConn call.conn call.flag with running := p.running.erase call }
  else none

def Pool.step (p : Pool) : Event → Option Pool
  | .enter caller taken connected => p.enter caller connected taken
  | .query call ok => p.query call ok
  | .leave call => p.leave call

def Pool.Steps (p : Pool) (event : Event) (p' : Pool) : Prop :=
  p.step event = some p'

inductive Transition (p : Pool) : Event → Pool → Prop
  | taken {caller : Caller} {conn : Connection} {connected : Bool} (hconn : conn ∈ p.queue) :
      Transition p (.enter caller (some conn) connected)
        { p with
          queue := p.queue.erase conn
          running := { caller := caller, conn := conn, flag := .pooled } ::ₘ p.running }
  | opened {caller : Caller} (hqueue : p.queue = 0) :
      Transition p (.enter caller none true)
        { p with
          running := { caller := caller, conn := p.opened, flag := .manual } ::ₘ p.running
          opened := p.opened + 1 }
  | refused {caller : Caller} (hqueue : p.queue = 0) : Transition p (.enter caller none false) p
  | answered {call : Call} (hcall : call ∈ p.running) (hhistory : call.caller.isHistory = true) :
      Transition p (.query call true)
        { p with running := { call with answered := true } ::ₘ p.running.erase call }
  | leaked {call : Call} (hcall : call ∈ p.running) (hhistory : call.caller.isHistory = true) :
      Transition p (.query call false) { p with running := p.running.erase call }
  | executed {call : Call} {ok : Bool} (hexecutor : call.caller.isHistory = false) :
      Transition p (.query call ok) p
  | left {call : Call} (hcall : call ∈ p.running) :
      Transition p (.leave call)
        { p.releaseMysqlConn call.conn call.flag with running := p.running.erase call }

theorem transition_of_steps {p p' : Pool} {event : Event} (h : p.Steps event p') :
    Transition p event p' := by
  cases event with
  | enter caller taken connected =>
      rcases taken with _ | conn
      · simp only [Pool.Steps, Pool.step, Pool.enter, getMysqlConn] at h
        split at h
        · rename_i hqueue
          cases connected with
          | false =>
              cases h
              exact .refused hqueue
          | true =>
              cases h
              exact .opened hqueue
        · cases h
      · simp only [Pool.Steps, Pool.step, Pool.enter, getMysqlConn] at h
        split at h
        · rename_i hconn
          cases h
          exact .taken hconn
        · cases h
  | query call ok =>
      simp only [Pool.Steps, Pool.step, Pool.query] at h
      split at h
      · rename_i hcall
        split at h
        · rename_i hhistory
          split at h
          · cases h
          · cases ok with
            | false =>
                cases h
                exact .leaked hcall hhistory
            | true =>
                cases h
                exact .answered hcall hhistory
        · rename_i hexecutor
          cases h
          exact .executed (by simpa using hexecutor)
      · cases h
  | leave call =>
      simp only [Pool.Steps, Pool.step, Pool.leave] at h
      split at h
      · rename_i hcall
        cases h
        exact .left hcall.1
      · cases h

def queryFails : Event → Bool
  | .query call ok => call.caller.isHistory && !ok
  | _ => false

/-- Every connection opened so far is in exactly one place, and while no call is
running the pool is as `mysql_conn_pool_init` left it and every other connection
is closed. -/
structure Owned (initial : Multiset Connection) (p : Pool) : Prop where
  once : p.queue + p.held + p.closed = Multiset.range p.opened
  idle : p.running = 0 → p.queue = initial ∧
    ∀ conn < p.opened, conn ∉ initial → conn ∈ p.closed

def pooledConns (calls : Multiset Call) : Multiset Connection :=
  (calls.filter fun call => call.flag = .pooled).map Call.conn

structure Accounted (initial : Multiset Connection) (leaked : Multiset Call) (p : Pool) :
    Prop where
  once : p.queue + (p.running + leaked).map Call.conn + p.closed = Multiset.range p.opened
  pooled : p.queue + pooledConns (p.running + leaked) = initial

variable {initial : Multiset Connection} {leaked : Multiset Call} {p p' : Pool}

theorem Accounted.moved (h : Accounted initial leaked p) {calls leaked' : Multiset Call}
    (hcalls : (calls + leaked').map Call.conn = (p.running + leaked).map Call.conn)
    (hpooled : pooledConns (calls + leaked') = pooledConns (p.running + leaked)) :
    Accounted initial leaked' { p with running := calls } := by
  constructor
  · rw [← h.once, ← hcalls]
  · rw [← h.pooled, ← hpooled]

@[simp] theorem pooledConns_cons (call : Call) (calls : Multiset Call) :
    pooledConns (call ::ₘ calls) =
      if call.flag = .pooled then call.conn ::ₘ pooledConns calls else pooledConns calls := by
  unfold pooledConns
  split
  · rename_i hflag
    rw [Multiset.filter_cons_of_pos (p := fun call => call.flag = .pooled) calls hflag,
      Multiset.map_cons]
  · rename_i hflag
    rw [Multiset.filter_cons_of_neg (p := fun call => call.flag = .pooled) calls hflag]

theorem Accounted.taken (h : Accounted initial leaked p) (caller : Caller) {conn : Connection}
    (hconn : conn ∈ p.queue) :
    Accounted initial leaked
      { p with
        queue := p.queue.erase conn
        running := { caller := caller, conn := conn, flag := .pooled } ::ₘ p.running } := by
  have honce := h.once
  have hpooled := h.pooled
  rw [← Multiset.cons_erase hconn, Multiset.cons_add] at honce hpooled
  constructor
  · simpa only [Multiset.cons_add, Multiset.map_cons, Multiset.add_cons] using honce
  · simpa only [Multiset.cons_add, pooledConns_cons, if_true, Multiset.add_cons] using hpooled

theorem Accounted.opened (h : Accounted initial leaked p) (caller : Caller) :
    Accounted initial leaked
      { p with
        running := { caller := caller, conn := p.opened, flag := .manual } ::ₘ p.running
        opened := p.opened + 1 } := by
  constructor
  · rw [Multiset.range_succ, ← h.once]
    simp only [Multiset.cons_add, Multiset.map_cons, Multiset.add_cons]
  · rw [← h.pooled]
    simp [Multiset.cons_add]

theorem Accounted.left (h : Accounted initial leaked p) {call : Call} (hcall : call ∈ p.running) :
    Accounted initial leaked
      { p.releaseMysqlConn call.conn call.flag with running := p.running.erase call } := by
  have hrunning := Multiset.cons_erase hcall
  have honce := h.once
  have hpooled := h.pooled
  rw [← hrunning] at honce hpooled
  simp only [Multiset.cons_add, Multiset.map_cons, Multiset.add_cons, pooledConns_cons]
    at honce hpooled
  cases hflag : call.flag with
  | pooled =>
      rw [if_pos hflag, Multiset.add_cons] at hpooled
      constructor
      · simpa only [Pool.releaseMysqlConn, Multiset.cons_add] using honce
      · simpa only [Pool.releaseMysqlConn, Multiset.cons_add] using hpooled
  | manual =>
      rw [if_neg (by simp [hflag])] at hpooled
      constructor
      · simpa only [Pool.releaseMysqlConn, Multiset.add_cons] using honce
      · exact hpooled

theorem accounted_step {event : Event} (h : Accounted initial leaked p)
    (hstep : p.Steps event p') :
    ∃ leaked', Accounted initial leaked' p' ∧
      (leaked' = 0 ↔ leaked = 0 ∧ queryFails event = false) := by
  cases transition_of_steps hstep with
  | taken hconn => exact ⟨leaked, h.taken _ hconn, by simp [queryFails]⟩
  | opened hqueue => exact ⟨leaked, h.opened _, by simp [queryFails]⟩
  | refused => exact ⟨leaked, h, by simp [queryFails]⟩
  | @answered call hcall hhistory =>
      refine ⟨leaked, h.moved ?_ ?_, by simp [queryFails]⟩
      · nth_rewrite 2 [← Multiset.cons_erase hcall]
        simp
      · nth_rewrite 2 [← Multiset.cons_erase hcall]
        simp
  | @leaked call hcall hhistory =>
      refine ⟨call ::ₘ leaked, h.moved ?_ ?_, by simp [queryFails, hhistory]⟩
      · nth_rewrite 2 [← Multiset.cons_erase hcall]
        simp
      · nth_rewrite 2 [← Multiset.cons_erase hcall]
        simp
  | executed hexecutor => exact ⟨leaked, h, by simp [queryFails, hexecutor]⟩
  | left hcall => exact ⟨leaked, h.left hcall, by simp [queryFails]⟩

theorem accounted_mysqlConnPoolInit (outcomes : List Bool)
    (h : Accounted p.queue 0 p) :
    Accounted (mysqlConnPoolInit outcomes p).queue 0 (mysqlConnPoolInit outcomes p) := by
  induction outcomes generalizing p with
  | nil => exact h
  | cons outcome outcomes ih =>
      cases outcome with
      | false => exact h
      | true =>
          apply ih
          constructor
          · have honce := h.once
            rw [Multiset.range_succ, ← honce]
            simp
          · have hpooled := h.pooled
            simpa using hpooled

theorem accounted_of_run {events : List Event} (h : Accounted initial 0 p)
    (hrun : Run Pool.Steps p events p') :
    ∃ leaked, Accounted initial leaked p' ∧
      (leaked = 0 ↔ ∀ event ∈ events, queryFails event = false) := by
  induction hrun with
  | nil => exact ⟨0, h, by simp⟩
  | snoc _ hlast ih =>
      obtain ⟨leaked, haccounted, hnone⟩ := ih
      obtain ⟨leaked', haccounted', hnone'⟩ := accounted_step haccounted hlast
      refine ⟨leaked', haccounted', ?_⟩
      rw [hnone', hnone]
      simp [or_imp, forall_and]

theorem Accounted.owned_iff (h : Accounted initial leaked p) :
    Owned initial p ↔ leaked = 0 := by
  constructor
  · intro howned
    have honce := h.once
    rw [← howned.once, Multiset.map_add, Pool.held] at honce
    have hmap : leaked.map Call.conn = 0 := by
      have hcard := congrArg Multiset.card honce
      simp only [Multiset.card_add, Multiset.card_map] at hcard
      rw [← Multiset.card_eq_zero, Multiset.card_map]
      omega
    exact Multiset.map_eq_zero.mp hmap
  · rintro rfl
    have honce := h.once
    have hpooled := h.pooled
    rw [Multiset.add_zero] at honce hpooled
    refine ⟨honce, fun hidle => ?_⟩
    rw [hidle] at honce hpooled
    have hqueue : p.queue = initial := by simpa [pooledConns] using hpooled
    refine ⟨hqueue, fun conn hconn hnew => ?_⟩
    have hmem := Multiset.mem_range.mpr hconn
    rw [← honce] at hmem
    simpa [hqueue, hnew] using hmem

/-- Connections stay owned exactly as long as no query of a history request fails. -/
theorem connections_owned_iff {outcomes : List Bool} {events : List Event}
    (hrun : Run Pool.Steps (mysqlConnPoolInit outcomes {}) events p) :
    Owned (mysqlConnPoolInit outcomes {}).queue p ↔
      ∀ event ∈ events, queryFails event = false := by
  have hinit : Accounted (mysqlConnPoolInit outcomes {}).queue 0 (mysqlConnPoolInit outcomes {}) :=
    accounted_mysqlConnPoolInit outcomes ⟨rfl, rfl⟩
  obtain ⟨leaked, haccounted, hnone⟩ := accounted_of_run hinit hrun
  rw [haccounted.owned_iff, hnone]

def answeredEvents : List Event :=
  let request : Call := { caller := .getPaymentHistory, conn := 0, flag := .pooled }
  let executor : Call := { caller := .mysqlQueueExeBatch, conn := 1, flag := .pooled }
  [ .enter .getPaymentHistory (some 0) true,
    .enter .mysqlQueueExeBatch (some 1) true,
    .query executor false,
    .query request true,
    .query executor true,
    .leave { request with answered := true },
    .leave executor ]

theorem connections_owned_answeredEvents :
    ∃ p, Run Pool.Steps (mysqlConnPoolInit [true, true] {}) answeredEvents p ∧
      Owned (mysqlConnPoolInit [true, true] {}).queue p := by
  have hrun : Run Pool.Steps (mysqlConnPoolInit [true, true] {}) answeredEvents _ :=
    run_of_foldlM rfl
  exact ⟨_, hrun, (connections_owned_iff hrun).mpr (by decide)⟩

def lostEvents : List Event :=
  [ .enter .getCreateHistory (some 0) true,
    .query { caller := .getCreateHistory, conn := 0, flag := .pooled } false ]

theorem connection_lost :
    ¬ ∀ (outcomes : List Bool) (events : List Event) (p : Pool),
      Run Pool.Steps (mysqlConnPoolInit outcomes {}) events p →
        Owned (mysqlConnPoolInit outcomes {}).queue p := by
  intro h
  have howned := h [true] lostEvents _ (run_of_foldlM rfl)
  have hqueue := (howned.idle rfl).1
  simp [mysqlConnPoolInit] at hqueue

end TorrentServer.ConnectionPool
