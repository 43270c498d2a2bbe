/-
The accesses of a running service to `service->connections`: `xv_service.c`.

In `Service/Program.lean` a call of `xv_service_add_connection` or `xv_service_del_connection`
is one step.  Here it is as many steps as it makes accesses to what other threads read or
write: `conn_setsize`, the pointer `service->connections`, the slots of the block it points
to, and `conn_count`.  What only the leader writes, the leader reads in the step that uses
it.  Every other step of the service is as it is there; the table of its own that the
service has there is not used.

`xv_realloc` is one step, made when it is called; until its result is assigned the pointer
goes on pointing to the old block.  A store to a block that was moved is undefined in the
source; here it changes the old block, which nobody reads any more, and the run goes on.
-/
import Libxv.Service.Program

namespace Libxv

open Function

variable {P : Type}

/-- The memory of the connection table. -/
structure TableMemory where
  /-- What each block holds: the one in use, and those `xv_realloc` has moved. -/
  block : Nat → Nat → Option Nat
  /-- How many slots each block has. -/
  size : Nat → Nat
  /-- The blocks from here on have not been allocated. -/
  blocks : Nat
  connections : Nat
  setsize : Nat
  count : Int

/-- What a reader of the table finds. -/
def TableMemory.slot (m : TableMemory) (fd : Nat) : Option Nat := m.block m.connections fd

/-- What `xv_realloc` does: whether it moves the block, and what the slots it adds hold. -/
structure Realloc where
  moved : Bool
  garbage : Nat → Option Nat

/-- Where a thread is in `xv_service_add_connection` or `xv_service_del_connection`. -/
inductive TablePc
  /-- Outside of both, or at the test of the fd against `conn_setsize`. -/
  | out
  /-- `xv_service_add_connection`: `xv_realloc`. -/
  | realloc
  /-- `xv_service_add_connection`: assign the block that `xv_realloc` returned. -/
  | assign (block : Nat)
  /-- `xv_service_add_connection`: store the connection. -/
  | put
  /-- `xv_service_add_connection`: `xv_atomic_incr` of `conn_count`. -/
  | countUp
  /-- `xv_service_del_connection`: load `service->connections`. -/
  | load
  /-- `xv_service_del_connection`: store the null pointer in the block loaded. -/
  | clear (block : Nat)
  /-- `xv_service_del_connection`: `xv_atomic_decr` of `conn_count`. -/
  | countDown
  deriving DecidableEq

/-- How a function goes on after an access: with the next one, or back to its caller. -/
inductive TableNext (ρ : Type)
  | goOn (pc : TablePc)
  | back (ret : ρ)

/-- A store through a pointer to a block. -/
def TableMemory.store (m : TableMemory) (b fd : Nat) (value : Option Nat) : TableMemory :=
  { m with block := update m.block b (update (m.block b) fd value) }

/-- The block that `xv_realloc` returns. -/
def TableMemory.reallocated (m : TableMemory) (call : Realloc) : Nat :=
  if call.moved then m.blocks else m.connections

/-- `xv_realloc` of `service->connections` to `conn_setsize` slots. -/
def TableMemory.xvRealloc (m : TableMemory) (call : Realloc) : TableMemory :=
  let old := m.connections
  { m with
    block := update m.block (m.reallocated call) fun i =>
      if i < m.size old then m.block old i else call.garbage i
    size := update m.size (m.reallocated call) m.setsize
    blocks := if call.moved then m.blocks + 1 else m.blocks }

/-- `xv_service_add_connection`.  A growth whose size in bytes, `array_size`, is no int has no
result, nor has a write past the end. -/
def TableMemory.xvServiceAddConnection (m : TableMemory) (fd c : Nat) (call : Realloc) :
    TablePc → Option (TableMemory × TableNext Unit)
  | .out =>
      if fd > m.setsize then some ({ m with setsize := m.setsize * 2 }, .goOn .realloc)
      else some (m, .goOn .put)
  | .realloc =>
      if sizeofPointer * m.setsize ≤ intMax then
        some (m.xvRealloc call, .goOn (.assign (m.reallocated call)))
      else none
  | .assign b => some ({ m with connections := b }, .goOn .put)
  | .put =>
      if fd < m.size m.connections then
        some (m.store m.connections fd (some c), .goOn .countUp)
      else none
  | .countUp => some ({ m with count := m.count + 1 }, .back ())
  | _ => none

def TableMemory.xvServiceDelConnection (m : TableMemory) (fd : Nat) :
    TablePc → Option (TableMemory × TableNext Int)
  | .out => if fd ≥ m.setsize then some (m, .back xvErr) else some (m, .goOn .load)
  | .load => some (m, .goOn (.clear m.connections))
  | .clear b => some (m.store b fd none, .goOn .countDown)
  | .countDown => some ({ m with count := m.count - 1 }, .back xvOk)
  | _ => none

/-- A running service and the memory of its connection table. -/
structure TableUse (P : Type) where
  service : State P
  memory : TableMemory
  inTable : Agent → TablePc

inductive TableLabel (P : Type)
  | service (label : Label P)
  /-- The thread makes its next access to the table. -/
  | table (a : Agent) (call : Realloc)

/-- What `xv_service_del_connection` has done to a connection when it returns. -/
def State.deleted (s : State P) (c : Nat) (ret : Int) : State P :=
  { s with
    conns := update s.conns c
      { s.conns c with deleted := (s.conns c).deleted + if ret = xvOk then 1 else 0 } }

/-- Thread `a` has made an access; `back` is the service when the function returns. -/
def TableUse.goOn {ρ : Type} (x : TableUse P) (a : Agent) (back : ρ → State P) :
    TableMemory × TableNext ρ → TableUse P
  | (memory, .goOn pc) => { x with memory := memory, inTable := update x.inTable a pc }
  | (memory, .back ret) =>
      { service := back ret, memory := memory, inTable := update x.inTable a .out }

/-- The next access of thread `a` to the table. -/
def TableUse.access (x : TableUse P) (a : Agent) (call : Realloc) : Option (TableUse P) :=
  match x.service.pc a with
  | .addConnection c =>
      let fd := (x.service.conns c).conn.fd
      (x.memory.xvServiceAddConnection fd c call (x.inTable a)).map
        (x.goOn a fun _ => x.service.goto a (.assign c))
  | .closeDel c resume =>
      let fd := (x.service.conns c).conn.fd
      (x.memory.xvServiceDelConnection fd (x.inTable a)).map
        (x.goOn a fun ret => (x.service.deleted c ret).goto a (.closeFd c resume))
  | _ => none

/-- A step of a thread that is at the table. -/
def State.atTable (s : State P) : Label P → Bool
  | .act a _ => (s.pc a).changesTable
  | _ => false

def TableUse.step (cfg : Config) (ctl : EpollCtl) (x : TableUse P) :
    TableLabel P → Option (TableUse P)
  | .service label =>
      if x.service.atTable label then none
      else (x.service.step cfg ctl label).map fun s => { x with service := s }
  | .table a call => if a.runs cfg && x.service.safe a then x.access a call else none

def TableUse.init : TableUse P :=
  { service := State.init
    memory :=
      { block := fun _ _ => none, size := fun _ => xvDefaultLoopSize, blocks := 1,
        connections := 0, setsize := xvDefaultLoopSize, count := 0 }
    inTable := fun _ => .out }

/-! ### Short runs -/

/-- Steps of the service that are not at the table. -/
def inService (labels : List (Label P)) : List (TableLabel P) := labels.map .service

/-- Thread `a` makes `n` accesses to the table; a growth does not move it. -/
def accesses (a : Agent) (n : Nat) : List (TableLabel P) :=
  List.replicate n (.table a ⟨false, fun _ => none⟩)

/-- The leader accepts a connection on `fd`, up to the table. -/
def acceptFd (fd : Nat) : Label P := .act (.io 0) (.accept fd fullHandle fun _ => 0)

/-- The leader starts, accepts a connection on fd 5 and puts it in the table. -/
def acceptInTable : List (TableLabel P) :=
  inService (goes (.io 0) 1 ++ [acceptFd 5]) ++ accesses (.io 0) 3 ++ inService (goes (.io 0) 1)

end Libxv
