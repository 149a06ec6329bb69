import Sirah.Lib.CString
import Sirah.Lib.Run
import Sirah.Lib.SplitFirst
import Sirah.Lib.Sweep

/-!
# The connection pool

Model of `sirah/internal/optimization/connection_pool.c`. A connection is what a pointer of the array refers to, with the
pointer as its address; who holds a connection is not recorded, only that it is in use.

* `acquire` reuses the first idle connection to the same remote, and allocates one while there are fewer than
  `max_connections`. An answer of the allocator is an address that is not in use, or a failure.
* `remove` and `cleanup_idle` free connections and close the gap; `cleanup_idle` looks at the place once more.
* `World` adds the callers that hold a connection, and when each was last acquired or released.

`Sound` is what the pool is for, with the cases in which it returns a connection, and **`sound_of_allowed`** says that it holds in
every run in which a connection is released or removed by the caller that holds it, whatever the clock says.
-/

namespace Sirah.ConnectionPool

open Runs

/-! ## Data -/

/-- `k8s_connection_t` at its address. -/
structure Connection where
  addr : Nat
  fd : Int
  remoteIp : CString
  remotePort : Int
  inUse : Bool
  createdAt : Int
  lastUsedAt : Int
  deriving DecidableEq, Repr

/-- `k8s_connection_pool_t`. -/
structure Pool where
  connections : List Connection
  maxConnections : Int
  idleTimeoutSeconds : Int
  enabled : Bool
  deriving DecidableEq, Repr

/-! ## Operations -/

namespace Pool

/-- `k8s_connection_pool_new`. -/
def new (maxConnections idleTimeoutSeconds : Int) : Option Pool :=
  if maxConnections ≤ 0 ∨ idleTimeoutSeconds ≤ 0 then none else some ⟨[], maxConnections, idleTimeoutSeconds, true⟩

/-- The addresses of the connections. -/
def addrs (pool : Pool) : List Nat := pool.connections.map Connection.addr

/-- `calloc`, `malloc` and `realloc`: a new connection gets an address that is not in use, or they fail. -/
def alloc (pool : Pool) (answer : Option Nat) : Option Nat := answer.filter fun addr => decide (addr ∉ pool.addrs)

/-- The test of `k8s_connection_pool_acquire`. -/
def idleTo (remoteIp : CString) (remotePort : Int) (conn : Connection) : Bool :=
  !conn.inUse && decide (conn.remoteIp = remoteIp) && decide (conn.remotePort = remotePort)

/-- `k8s_connection_pool_acquire`: the address of the connection, or NULL. -/
def acquire (pool : Pool) (remoteIp : CString) (remotePort now : Int) (answer : Option Nat) : Option Nat × Pool :=
  if remotePort ≤ 0 then (none, pool)
  else if pool.enabled = false then (none, pool)
  else
    match pool.connections.splitFirst (idleTo remoteIp remotePort) with
    | some (pre, conn, post) =>
      (some conn.addr,
        { pool with connections := pre ++ { conn with inUse := true, lastUsedAt := now } :: post })
    | none =>
      if pool.connections.length < pool.maxConnections then
        match pool.alloc answer with
        | none => (none, pool)
        | some addr =>
          (some addr,
            { pool with connections := pool.connections ++ [⟨addr, -1, remoteIp, remotePort, true, now, now⟩] })
      else (none, pool)

/-- `k8s_connection_pool_release`. -/
def release (pool : Pool) (addr : Nat) (now : Int) : Pool × Int :=
  match pool.connections.splitFirst fun conn => decide (conn.addr = addr) with
  | some (pre, conn, post) =>
    ({ pool with connections := pre ++ { conn with inUse := false, lastUsedAt := now } :: post }, 0)
  | none => (pool, -1)

/-- `k8s_connection_pool_remove`. -/
def remove (pool : Pool) (addr : Nat) : Pool × Int :=
  match pool.connections.splitFirst fun conn => decide (conn.addr = addr) with
  | some (pre, _, post) => ({ pool with connections := pre ++ post }, 0)
  | none => (pool, -1)

/-- `k8s_connection_pool_cleanup_idle`. -/
def cleanupIdle (pool : Pool) (now : Int) : Pool × Int :=
  let r := pool.connections.sweepUp
    (fun conn => !conn.inUse && decide (now - conn.lastUsedAt > pool.idleTimeoutSeconds)) pool.connections.length 0
  ({ pool with connections := r.1 }, r.2)

/-- `k8s_connection_pool_get_active`. -/
def getActive (pool : Pool) : Nat := pool.connections.countP fun conn => conn.inUse

/-- `k8s_connection_pool_get_idle`. -/
def getIdle (pool : Pool) : Nat := pool.connections.countP fun conn => !conn.inUse

end Pool

/-! ## Callers -/

/-- The pool, who holds which connection, and the last use of each. -/
structure World (κ : Type*) where
  pool : Pool
  held : List (κ × Nat)
  lastUse : Nat → Int

/-- A call. -/
inductive Op (κ : Type*) where
  | acquire (caller : κ) (remoteIp : CString) (remotePort now : Int) (answer : Option Nat)
  | release (caller : κ) (addr : Nat) (now : Int)
  | remove (caller : κ) (addr : Nat)
  | cleanupIdle (now : Int)

section Callers

variable {κ : Type*}

def step [DecidableEq κ] (w : World κ) : Op κ → World κ
  | .acquire caller remoteIp remotePort now answer =>
    match w.pool.acquire remoteIp remotePort now answer with
    | (some addr, pool) =>
      { pool, held := w.held ++ [(caller, addr)], lastUse := Function.update w.lastUse addr now }
    | (none, pool) => { w with pool }
  | .release caller addr now =>
    { pool := (w.pool.release addr now).1, held := w.held.filter (· ≠ (caller, addr)),
      lastUse := Function.update w.lastUse addr now }
  | .remove caller addr => { w with pool := (w.pool.remove addr).1, held := w.held.filter (· ≠ (caller, addr)) }
  | .cleanupIdle now => { w with pool := (w.pool.cleanupIdle now).1 }

/-- A connection is released or removed by the caller that holds it. -/
def Allowed (w : World κ) : Op κ → Prop
  | .release caller addr _ => (caller, addr) ∈ w.held
  | .remove caller addr => (caller, addr) ∈ w.held
  | _ => True

instance Allowed.decidable [DecidableEq κ] (w : World κ) : ∀ op, Decidable (Allowed w op)
  | .release caller addr _ => inferInstanceAs (Decidable ((caller, addr) ∈ w.held))
  | .remove caller addr => inferInstanceAs (Decidable ((caller, addr) ∈ w.held))
  | .acquire .. | .cleanupIdle _ => inferInstanceAs (Decidable True)

/-- The connections that are held. -/
def World.heldAddrs (w : World κ) : List Nat := w.held.map Prod.snd

/-- Nobody holds the connection, and it was not used for longer than the timeout. -/
def World.Stale (w : World κ) (now : Int) (conn : Connection) : Prop :=
  conn.addr ∉ w.heldAddrs ∧ w.pool.idleTimeoutSeconds < now - w.lastUse conn.addr

instance World.Stale.decidable (w : World κ) (now : Int) (conn : Connection) : Decidable (w.Stale now conn) :=
  inferInstanceAs (Decidable (_ ∧ _))

/-- **What the pool is for.** -/
structure Sound (w : World κ) : Prop where
  /-- No connection is held twice. -/
  oneHolder : w.heldAddrs.Nodup
  /-- What is acquired is a connection to the remote that was asked for, and nobody held it. -/
  acquired : ∀ remoteIp remotePort now answer addr, (w.pool.acquire remoteIp remotePort now answer).1 = some addr →
    addr ∉ w.heldAddrs ∧ ∃ conn ∈ (w.pool.acquire remoteIp remotePort now answer).2.connections,
      conn.addr = addr ∧ conn.remoteIp = remoteIp ∧ conn.remotePort = remotePort
  /-- A connection is returned exactly if one to the remote is not held, or there is room and memory for a new one. -/
  returned : ∀ remoteIp remotePort now answer, (w.pool.acquire remoteIp remotePort now answer).1.isSome = true ↔
    0 < remotePort ∧
      ((∃ conn ∈ w.pool.connections, conn.addr ∉ w.heldAddrs ∧ conn.remoteIp = remoteIp ∧ conn.remotePort = remotePort) ∨
        w.pool.connections.length < w.pool.maxConnections ∧ ∃ addr, answer = some addr ∧ addr ∉ w.pool.addrs)
  atMost : w.pool.connections.length ≤ w.pool.maxConnections
  counted : w.pool.getActive + w.pool.getIdle = w.pool.connections.length
  /-- A cleanup removes what is stale, keeps the order of the rest, and returns how many it removed. -/
  cleanup : ∀ now, w.pool.cleanupIdle now =
    ({ w.pool with connections := w.pool.connections.filter fun conn => !decide (w.Stale now conn) },
      ((w.pool.connections.filter fun conn => decide (w.Stale now conn)).length : Int))

/-! ## The invariant -/

/-- **A connection is in use exactly if it is held**, and records its last use. -/
structure Inv (w : World κ) : Prop where
  distinct : w.pool.addrs.Nodup
  oneHolder : w.heldAddrs.Nodup
  pooled : ∀ addr ∈ w.heldAddrs, addr ∈ w.pool.addrs
  inUse : ∀ conn ∈ w.pool.connections, conn.inUse = true ↔ conn.addr ∈ w.heldAddrs
  lastUse : ∀ conn ∈ w.pool.connections, conn.lastUsedAt = w.lastUse conn.addr
  atMost : w.pool.connections.length ≤ w.pool.maxConnections
  enabled : w.pool.enabled = true

variable {w : World κ} {pre post : List Connection} {conn : Connection} {addr : Nat}

/-! ### What the pool does -/

/-- **An acquisition** fails, takes an idle connection to the remote, or adds one. -/
theorem acquire_cases (pool : Pool) (remoteIp : CString) (remotePort now : Int) (answer : Option Nat) :
    pool.acquire remoteIp remotePort now answer = (none, pool) ∨
      (∃ pre conn post, pool.connections = pre ++ conn :: post ∧ conn.inUse = false ∧ conn.remoteIp = remoteIp ∧
        conn.remotePort = remotePort ∧ pool.acquire remoteIp remotePort now answer = (some conn.addr,
          { pool with connections := pre ++ { conn with inUse := true, lastUsedAt := now } :: post })) ∨
      ∃ addr, addr ∉ pool.addrs ∧ pool.connections.length < pool.maxConnections ∧
        pool.acquire remoteIp remotePort now answer = (some addr,
          { pool with connections := pool.connections ++ [⟨addr, -1, remoteIp, remotePort, true, now, now⟩] }) := by
  unfold Pool.acquire
  split
  · exact .inl rfl
  split
  · exact .inl rfl
  rcases List.splitFirst_cases (Pool.idleTo remoteIp remotePort) pool.connections with
    ⟨hnone, -⟩ | ⟨pre, conn, post, hsome, hl, hidle⟩
  · rw [hnone]
    dsimp only
    split
    · next hroom =>
      unfold Pool.alloc
      cases hanswer : answer.filter fun addr => decide (addr ∉ pool.addrs) with
      | none => exact .inl rfl
      | some addr =>
        obtain ⟨-, hfree⟩ := Option.filter_eq_some_iff.mp hanswer
        exact .inr (.inr ⟨addr, of_decide_eq_true hfree, hroom, rfl⟩)
    · exact .inl rfl
  · rw [hsome]
    simp only [Pool.idleTo, Bool.and_eq_true, Bool.not_eq_true', decide_eq_true_eq] at hidle
    exact .inr (.inl ⟨pre, conn, post, hl, hidle.1.1, hidle.1.2, hidle.2, rfl⟩)

/-- The connection at an address of the pool. -/
theorem find_addr {pool : Pool} (h : addr ∈ pool.addrs) :
    ∃ pre conn post, pool.connections.splitFirst (fun conn => decide (conn.addr = addr)) = some (pre, conn, post) ∧
      pool.connections = pre ++ conn :: post ∧ conn.addr = addr := by
  rcases List.splitFirst_key_cases Connection.addr pool.connections addr with ⟨-, hfree⟩ | hfound
  · exact absurd h hfree
  · exact hfound

/-- **What is acquired** goes to the remote that was asked for. -/
theorem acquired (pool : Pool) (remoteIp : CString) (remotePort now : Int) (answer : Option Nat)
    (h : (pool.acquire remoteIp remotePort now answer).1 = some addr) :
    ∃ conn ∈ (pool.acquire remoteIp remotePort now answer).2.connections,
      conn.addr = addr ∧ conn.remoteIp = remoteIp ∧ conn.remotePort = remotePort := by
  rcases acquire_cases pool remoteIp remotePort now answer with
    heq | ⟨pre, conn, post, -, -, hip, hport, heq⟩ | ⟨a, -, -, heq⟩
  · rw [heq] at h
    cases h
  · rw [heq] at h ⊢
    cases h
    exact ⟨_, List.mem_append_right _ List.mem_cons_self, rfl, hip, hport⟩
  · rw [heq] at h ⊢
    cases h
    exact ⟨_, List.mem_append_right _ (List.mem_singleton_self _), rfl, rfl, rfl⟩

/-! ### What the callers see -/

/-- The connections beside one of them have other addresses. -/
theorem Inv.beside (h : Inv w) (hl : w.pool.connections = pre ++ conn :: post) {z : Connection} (hz : z ∈ pre ++ post) :
    z ∈ w.pool.connections ∧ z.addr ≠ conn.addr := by
  have hdistinct := h.distinct
  rw [Pool.addrs, hl] at hdistinct
  rw [hl]
  exact (List.mem_beside_iff hdistinct).mp hz

/-- **A connection is used now**: it comes into use, or is idle from now on. -/
theorem Inv.use (h : Inv w) (hl : w.pool.connections = pre ++ conn :: post) (conn' : Connection)
    (haddr : conn'.addr = conn.addr) {held : List (κ × Nat)} (hnodup : (held.map Prod.snd).Nodup)
    (hother : ∀ a, a ≠ conn.addr → (a ∈ held.map Prod.snd ↔ a ∈ w.heldAddrs))
    (huse : conn'.inUse = true ↔ conn.addr ∈ held.map Prod.snd) :
    Inv (⟨{ w.pool with connections := pre ++ conn' :: post }, held,
      Function.update w.lastUse conn.addr conn'.lastUsedAt⟩ : World κ) := by
  have haddrs : (pre ++ conn' :: post).map Connection.addr = w.pool.addrs := by
    rw [Pool.addrs, hl, List.map_append, List.map_append, List.map_cons, List.map_cons, haddr]
  refine ⟨?_, hnodup, fun a ha => ?_, fun z hz => ?_, fun z hz => ?_, ?_, h.enabled⟩
  · rw [Pool.addrs, haddrs]
    exact h.distinct
  · rw [Pool.addrs, haddrs]
    by_cases hac : a = conn.addr
    · rw [hac, Pool.addrs, hl]
      exact List.mem_map_of_mem (List.mem_append_right _ List.mem_cons_self)
    · exact h.pooled a ((hother a hac).mp ha)
  · rcases List.mem_append_cons_iff.mp hz with rfl | hz
    · rw [haddr]
      exact huse
    · obtain ⟨hmem, hne⟩ := h.beside hl hz
      exact (h.inUse z hmem).trans (hother z.addr hne).symm
  · rcases List.mem_append_cons_iff.mp hz with rfl | hz
    · rw [haddr]
      exact (Function.update_self conn.addr z.lastUsedAt w.lastUse).symm
    · obtain ⟨hmem, hne⟩ := h.beside hl hz
      exact (h.lastUse z hmem).trans (Function.update_of_ne hne ..).symm
  · have hlength := h.atMost
    rw [hl, List.length_append, List.length_cons] at hlength
    rw [List.length_append, List.length_cons]
    exact hlength

/-- **A connection is added**, and its caller holds it. -/
theorem Inv.add (h : Inv w) (caller : κ) (conn : Connection) (hfree : conn.addr ∉ w.pool.addrs)
    (hroom : w.pool.connections.length < w.pool.maxConnections) (hbusy : conn.inUse = true) :
    Inv (⟨{ w.pool with connections := w.pool.connections ++ [conn] }, w.held ++ [(caller, conn.addr)],
      Function.update w.lastUse conn.addr conn.lastUsedAt⟩ : World κ) := by
  have hnew : conn.addr ∉ w.heldAddrs := fun hheld => hfree (h.pooled conn.addr hheld)
  have hold : ∀ z ∈ w.pool.connections, z.addr ≠ conn.addr := fun z hz heq => hfree (heq ▸ List.mem_map_of_mem hz)
  have hheld : ∀ a, a ∈ (w.held ++ [(caller, conn.addr)]).map Prod.snd ↔ a ∈ w.heldAddrs ∨ a = conn.addr := by
    intro a
    rw [List.map_append, List.mem_append, List.map_singleton, List.mem_singleton]
    exact Iff.rfl
  refine ⟨List.nodup_map_concat.mpr ⟨hfree, h.distinct⟩, List.nodup_map_concat.mpr ⟨hnew, h.oneHolder⟩,
    fun a ha => ?_, fun z hz => ?_, fun z hz => ?_, ?_, h.enabled⟩
  · rw [Pool.addrs, List.map_append, List.mem_append, List.map_singleton, List.mem_singleton]
    exact ((hheld a).mp ha).imp_left (h.pooled a)
  · rw [World.heldAddrs, hheld]
    rcases List.mem_append.mp hz with hz | hz
    · rw [or_iff_left (hold z hz)]
      exact h.inUse z hz
    · rw [List.mem_singleton.mp hz]
      exact iff_of_true hbusy (.inr rfl)
  · rcases List.mem_append.mp hz with hz | hz
    · exact (h.lastUse z hz).trans (Function.update_of_ne (hold z hz) ..).symm
    · rw [List.mem_singleton.mp hz]
      exact (Function.update_self conn.addr conn.lastUsedAt w.lastUse).symm
  · rw [List.length_append, List.length_singleton]
    dsimp only
    omega

/-- **A cleanup**, in the words of the callers. -/
theorem Inv.cleanup (h : Inv w) (now : Int) : w.pool.cleanupIdle now =
    ({ w.pool with connections := w.pool.connections.filter fun conn => !decide (w.Stale now conn) },
      ((w.pool.connections.filter fun conn => decide (w.Stale now conn)).length : Int)) := by
  have hstale : ∀ conn ∈ w.pool.connections,
      (!conn.inUse && decide (now - conn.lastUsedAt > w.pool.idleTimeoutSeconds)) = decide (w.Stale now conn) := by
    intro conn hconn
    rw [Bool.eq_iff_iff, Bool.and_eq_true, Bool.not_eq_true', ← Bool.not_eq_true, h.inUse conn hconn, decide_eq_true_eq,
      decide_eq_true_eq, h.lastUse conn hconn]
    exact Iff.rfl
  have hkept : ∀ conn ∈ w.pool.connections,
      (!(!conn.inUse && decide (now - conn.lastUsedAt > w.pool.idleTimeoutSeconds))) = !decide (w.Stale now conn) :=
    fun conn hconn => congrArg (!·) (hstale conn hconn)
  unfold Pool.cleanupIdle
  rw [List.sweepUp_length, List.countP_eq_length_filter, List.filter_congr hstale]
  dsimp only
  rw [List.filter_congr hkept]

/-- **What is acquired** was not held. -/
theorem Inv.not_held (h : Inv w) {remoteIp : CString} {remotePort now : Int} {answer : Option Nat}
    (hsome : (w.pool.acquire remoteIp remotePort now answer).1 = some addr) : addr ∉ w.heldAddrs := by
  rcases acquire_cases w.pool remoteIp remotePort now answer with
    heq | ⟨pre, conn, post, hl, hidle, -, -, heq⟩ | ⟨a, hfree, -, heq⟩
  · rw [heq] at hsome
    cases hsome
  · rw [heq] at hsome
    cases hsome
    intro hheld
    have hmem : conn ∈ w.pool.connections := hl ▸ List.mem_append_right _ List.mem_cons_self
    have hbusy := (h.inUse conn hmem).mpr hheld
    exact Bool.false_ne_true (hidle.symm.trans hbusy)
  · rw [heq] at hsome
    cases hsome
    exact fun hheld => hfree (h.pooled _ hheld)

/-- **When a connection is returned**, in the words of the callers. -/
theorem Inv.returned (h : Inv w) (remoteIp : CString) (remotePort now : Int) (answer : Option Nat) :
    (w.pool.acquire remoteIp remotePort now answer).1.isSome = true ↔ 0 < remotePort ∧
      ((∃ conn ∈ w.pool.connections, conn.addr ∉ w.heldAddrs ∧ conn.remoteIp = remoteIp ∧ conn.remotePort = remotePort) ∨
        w.pool.connections.length < w.pool.maxConnections ∧ ∃ addr, answer = some addr ∧ addr ∉ w.pool.addrs) := by
  have hidle : ∀ conn ∈ w.pool.connections, Pool.idleTo remoteIp remotePort conn = true ↔
      conn.addr ∉ w.heldAddrs ∧ conn.remoteIp = remoteIp ∧ conn.remotePort = remotePort := by
    intro conn hconn
    rw [Pool.idleTo, Bool.and_eq_true, Bool.and_eq_true, Bool.not_eq_true', ← Bool.not_eq_true, h.inUse conn hconn,
      decide_eq_true_eq, decide_eq_true_eq, and_assoc]
  have hmemory : (w.pool.alloc answer).isSome = true ↔ ∃ addr, answer = some addr ∧ addr ∉ w.pool.addrs := by
    cases answer <;> simp [Pool.alloc]
  unfold Pool.acquire
  split
  · next hport => exact iff_of_false nofun fun hpos => absurd hpos.1 (by omega)
  next hport =>
  rw [if_neg (by rw [h.enabled]; exact Bool.noConfusion)]
  have hpos : 0 < remotePort := by omega
  rcases List.splitFirst_cases (Pool.idleTo remoteIp remotePort) w.pool.connections with
    ⟨hnone, hno⟩ | ⟨pre, conn, post, hsome, hl, hfound⟩
  · have hnot : ¬ ∃ conn ∈ w.pool.connections, conn.addr ∉ w.heldAddrs ∧ conn.remoteIp = remoteIp ∧
        conn.remotePort = remotePort := by
      rintro ⟨conn, hconn, hto⟩
      exact Bool.false_ne_true ((hno conn hconn).symm.trans ((hidle conn hconn).mpr hto))
    rw [hnone, and_iff_right hpos, or_iff_right hnot, ← hmemory]
    dsimp only
    split
    · next hroom =>
      rw [and_iff_right hroom]
      cases w.pool.alloc answer <;> rfl
    · next hfull => exact iff_of_false nofun fun hand => hfull hand.1
  · have hmem : conn ∈ w.pool.connections := hl ▸ List.mem_append_right _ List.mem_cons_self
    rw [hsome]
    exact iff_of_true rfl ⟨hpos, .inl ⟨conn, hmem, (hidle conn hmem).mp hfound⟩⟩

theorem Inv.sound (h : Inv w) : Sound w where
  oneHolder := h.oneHolder
  acquired remoteIp remotePort now answer _ hsome := ⟨h.not_held hsome, acquired w.pool remoteIp remotePort now answer hsome⟩
  returned := h.returned
  atMost := h.atMost
  counted := by
    rw [Pool.getActive, Pool.getIdle, List.length_eq_countP_add_countP fun conn : Connection => conn.inUse]
    simp
  cleanup := h.cleanup

/-- A new pool, and nothing held. -/
def World.start (κ : Type*) (pool : Pool) : World κ := ⟨pool, [], fun _ => 0⟩

theorem inv_start {pool : Pool} {maxConnections idleTimeoutSeconds : Int}
    (h : Pool.new maxConnections idleTimeoutSeconds = some pool) : Inv (World.start κ pool) := by
  unfold Pool.new at h
  split at h
  · cases h
  · next hpos =>
    cases h
    refine ⟨List.nodup_nil, List.nodup_nil, List.forall_mem_nil _, List.forall_mem_nil _, List.forall_mem_nil _, ?_, rfl⟩
    dsimp only [World.start, List.length_nil]
    omega

/-! ### Steps -/

variable [DecidableEq κ]

/-- The caller does not hold the connection any more, and nobody else does. -/
theorem mem_held_drop (h : w.heldAddrs.Nodup) {caller : κ} (hheld : (caller, addr) ∈ w.held) (a : Nat) :
    a ∈ (w.held.filter (· ≠ (caller, addr))).map Prod.snd ↔ a ∈ w.heldAddrs ∧ a ≠ addr := by
  simp only [World.heldAddrs, List.mem_map, List.mem_filter, decide_eq_true_eq]
  constructor
  · rintro ⟨x, ⟨hx, hne⟩, rfl⟩
    exact ⟨⟨x, hx, rfl⟩, fun heq => hne (List.inj_on_of_nodup_map h hx hheld heq)⟩
  · rintro ⟨⟨x, hx, rfl⟩, hne⟩
    exact ⟨x, ⟨hx, fun heq => hne (congrArg Prod.snd heq)⟩, rfl⟩

theorem nodup_held_drop (h : w.heldAddrs.Nodup) (x : κ × Nat) :
    ((w.held.filter (· ≠ x)).map Prod.snd).Nodup :=
  h.sublist (List.filter_sublist.map Prod.snd)

theorem inv_acquire (h : Inv w) (caller : κ) (remoteIp : CString) (remotePort now : Int) (answer : Option Nat) :
    Inv (step w (.acquire caller remoteIp remotePort now answer)) := by
  rcases acquire_cases w.pool remoteIp remotePort now answer with
    heq | ⟨pre, conn, post, hl, hidle, -, -, heq⟩ | ⟨addr, hfree, hroom, heq⟩
  · simp only [step, heq]
    exact h
  · simp only [step, heq]
    have hmem : conn ∈ w.pool.connections := by
      rw [hl]
      exact List.mem_append_right _ List.mem_cons_self
    have hnew : conn.addr ∉ w.heldAddrs := fun hheld => by
      have hbusy := (h.inUse conn hmem).mpr hheld
      exact Bool.false_ne_true (hidle.symm.trans hbusy)
    have hheld : ((w.held ++ [(caller, conn.addr)]).map Prod.snd).Nodup :=
      List.nodup_map_concat.mpr ⟨hnew, h.oneHolder⟩
    refine h.use hl { conn with inUse := true, lastUsedAt := now } rfl hheld (fun a hne => ?_) ?_
    · rw [List.map_append, List.mem_append, List.map_singleton, List.mem_singleton, or_iff_left hne]
      exact Iff.rfl
    · refine iff_of_true rfl ?_
      rw [List.map_append]
      exact List.mem_append_right _ (List.mem_singleton_self _)
  · simp only [step, heq]
    exact h.add caller ⟨addr, -1, remoteIp, remotePort, true, now, now⟩ hfree hroom rfl

theorem inv_release (h : Inv w) {caller : κ} (hheld : (caller, addr) ∈ w.held) (now : Int) :
    Inv (step w (.release caller addr now)) := by
  obtain ⟨pre, conn, post, hfirst, hl, rfl⟩ := find_addr (h.pooled addr (List.mem_map_of_mem hheld))
  have hdrop := mem_held_drop h.oneHolder hheld
  simp only [step, Pool.release, hfirst]
  refine h.use hl { conn with inUse := false, lastUsedAt := now } rfl (nodup_held_drop h.oneHolder _) (fun a hne => ?_) ?_
  · rw [hdrop, and_iff_left hne]
  · rw [hdrop]
    exact iff_of_false Bool.false_ne_true fun hmem => hmem.2 rfl

theorem inv_remove (h : Inv w) {caller : κ} (hheld : (caller, addr) ∈ w.held) :
    Inv (step w (.remove caller addr)) := by
  obtain ⟨pre, conn, post, hfirst, hl, rfl⟩ := find_addr (h.pooled addr (List.mem_map_of_mem hheld))
  have hdrop := mem_held_drop h.oneHolder hheld
  have hdistinct := h.distinct
  have hpooled := h.pooled
  rw [Pool.addrs, hl] at hdistinct hpooled
  simp only [step, Pool.remove, hfirst]
  refine ⟨List.nodup_remove hdistinct, nodup_held_drop h.oneHolder _, fun a ha => ?_, fun z hz => ?_, fun z hz => ?_, ?_,
    h.enabled⟩
  · obtain ⟨hmem, hne⟩ := (hdrop a).mp ha
    exact (List.mem_map_remove_iff hdistinct).mpr ⟨hpooled a hmem, hne⟩
  · obtain ⟨hmem, hne⟩ := h.beside hl hz
    rw [World.heldAddrs, hdrop, and_iff_left hne]
    exact h.inUse z hmem
  · exact h.lastUse z (h.beside hl hz).1
  · have hlength := h.atMost
    rw [hl, List.length_append, List.length_cons] at hlength
    rw [List.length_append]
    dsimp only
    omega

theorem inv_cleanupIdle (h : Inv w) (now : Int) : Inv (step w (.cleanupIdle now)) := by
  simp only [step, h.cleanup now]
  have hsub : (w.pool.connections.filter fun conn => !decide (w.Stale now conn)).Sublist w.pool.connections :=
    List.filter_sublist
  refine ⟨h.distinct.sublist (hsub.map _), h.oneHolder, fun a ha => ?_, fun z hz => h.inUse z (hsub.subset hz),
    fun z hz => h.lastUse z (hsub.subset hz), ?_, h.enabled⟩
  · -- what is held is not stale
    obtain ⟨conn, hconn, rfl⟩ := List.mem_map.mp (h.pooled a ha)
    refine List.mem_map_of_mem (List.mem_filter.mpr ⟨hconn, ?_⟩)
    rw [Bool.not_eq_true', decide_eq_false_iff_not]
    exact fun hstale => hstale.1 ha
  · have hle := hsub.length_le
    have := h.atMost
    dsimp only
    omega

/-- **A call** keeps the invariant. -/
theorem inv_step (op : Op κ) (h : Inv w) (hallowed : Allowed w op) : Inv (step w op) := by
  cases op with
  | acquire caller remoteIp remotePort now answer => exact inv_acquire h caller remoteIp remotePort now answer
  | release caller addr now => exact inv_release h hallowed now
  | remove caller addr => exact inv_remove h hallowed
  | cleanupIdle now => exact inv_cleanupIdle h now

/-- **A connection has one holder**, and the pool counts and cleans up right, in every run of a new pool. -/
theorem sound_of_allowed {pool : Pool} {maxConnections idleTimeoutSeconds : Int}
    (h : Pool.new maxConnections idleTimeoutSeconds = some pool) (ops : List (Op κ))
    (hallowed : AllSteps step Allowed (World.start κ pool) ops) :
    AllStates step Sound (World.start κ pool) ops :=
  (allStates_of_allSteps (fun _ op hinv hop => inv_step op hinv hop) (inv_start h) hallowed).imp fun _ hinv => hinv.sound

end Callers

/-- Two callers, one connection after the other, and a cleanup. -/
theorem sound_of_allowed_two : AllStates step Sound (World.start Nat ⟨[], 2, 300, true⟩)
    [.acquire 0 "10.0.0.1" 80 5 (some 4096), .release 0 4096 6, .acquire 1 "10.0.0.1" 80 7 none, .cleanupIdle 400] :=
  sound_of_allowed (show Pool.new 2 300 = some ⟨[], 2, 300, true⟩ from rfl) _ (by decide)

end Sirah.ConnectionPool
