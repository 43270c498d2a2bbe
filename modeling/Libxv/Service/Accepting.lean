/-
`on_new_connection` before the connection is made: `xv_service.c`.

`Service/Program.lean` has the leader accept a connection in one step.  Here the leader goes
through `xv_tcp_accept`, `xv_nonblock` and `xv_tcp_nodelay`, each of whose calls may fail, and
the process has a table of open fds, which other code of the process opens and closes too.
Between two of these steps any other thread of the service may go on.
-/
import Libxv.Accept
import Libxv.Service.Program

namespace Libxv

open Function

variable {P : Type}

/-- Where the leader is before `xv_connection_init`. -/
inductive AcceptPc
  /-- Not in this part of `on_new_connection`. -/
  | idle
  /-- `xv_tcp_accept`. -/
  | accept (handle : Handle)
  /-- `xv_nonblock`. -/
  | nonblock (handle : Handle) (client : Client)
  /-- `xv_tcp_nodelay`. -/
  | nodelay (handle : Handle) (client : Client)
  /-- `xv_connection_init`. -/
  | make (handle : Handle) (client : Client)

/-- The client whose socket the leader is setting up. -/
def AcceptPc.client : AcceptPc → Option Client
  | .nonblock _ client | .nodelay _ client | .make _ client => some client
  | .idle | .accept _ => none

/-- The leader is in this part of `on_new_connection`. -/
def AcceptPc.busy : AcceptPc → Bool
  | .idle => false
  | .accept _ | .nonblock .. | .nodelay .. | .make .. => true

/-- The service with the fds of its process. -/
structure Accepting (P : Type) where
  service : State P
  pc : AcceptPc
  fds : Fds
  noDelay : NoDelay
  /-- The fds that other code has opened. -/
  others : Nat → Bool
  /-- `conn->addr`, if it is a string, and `conn->port`. -/
  addr : Nat → Option String
  port : Nat → Nat

inductive AcceptLabel (P : Type)
  /-- Anything else in the service. -/
  | service (label : Label P)
  /-- `epoll_wait` reports a listener with this handle to the leader. -/
  | ready (handle : Handle)
  | accept (out : AcceptOut)
  /-- What the two calls of `fcntl` answer. -/
  | nonblock (getfl setfl : Bool)
  | nodelay (setsockopt : Bool)
  /-- `xv_connection_init`, with new buffers that hold `mem`. -/
  | make (mem : Nat → UInt8)
  /-- Other code opens and closes an fd. -/
  | openFd (fd : Nat)
  | closeFd (fd : Nat)

/-- A move of the leader. -/
def Label.leads : Label P → Bool
  | .act (.io 0) _ => true
  | _ => false

/-- The accept that is made step by step here. -/
def Label.accepts : Label P → Bool
  | .act _ (.accept ..) => true
  | _ => false

namespace Accepting

/-- What a move of the service makes of the open fds: `xv_connection_close` closes one. -/
def fdsAfter (x : Accepting P) : Label P → Fds
  | .act a _ =>
      match x.service.pc a with
      | .closeFd c _ => xvClose x.fds (x.service.conns c).conn.fd
      | _ => x.fds
  | .incrRef _ | .decrRef _ => x.fds

/-- `on_new_connection`, from `client_fd > 0` on or back to `epoll_wait`. -/
def accepted (x : Accepting P) (handle : Handle) : Option Client → Accepting P
  | none => { x with pc := .idle }
  | some client => { x with pc := if 0 < client.fd then .nonblock handle client else .idle }

/-- `accept` returns an fd that is not open. -/
def fits (x : Accepting P) : AcceptOut → Bool
  | .interrupted | .error => true
  | .client fd _ => (x.fds fd).isNone

/-- `accept` opens the fd it returns. -/
def opens (x : Accepting P) : AcceptOut → Accepting P
  | .interrupted | .error => x
  | .client fd sa =>
      { x with
        fds := x.fds.set fd (some { connected := some sa })
        noDelay := update x.noDelay fd false }

/-- `xv_close(client_fd)` and back to `epoll_wait`. -/
def refuse (x : Accepting P) (fd : Nat) : Accepting P :=
  { x with fds := xvClose x.fds fd, pc := .idle }

/-- `xv_connection_init`, which the leader goes on from to `xv_service_add_connection`. -/
def connectionInit (x : Accepting P) (handle : Handle) (client : Client) (mem : Nat → UInt8) :
    Accepting P :=
  let c := x.service.nextConn
  { x with
    service := (x.service.accept client.fd handle mem).goto (.io 0) (.addConnection c)
    pc := .idle
    addr := update x.addr c (client.addr.bind fun addr => strncpy addr xvAddrLen)
    port := update x.port c client.port }

/-- `on_new_connection` up to `xv_connection_init`, and everything that may go on beside it. -/
def step (cfg : Config) (tcpNodealy : Bool) (ctl : EpollCtl) (x : Accepting P) :
    AcceptLabel P → Option (Accepting P)
  | .service label =>
      if label.accepts || (label.leads && x.pc.busy) then none
      else
        (x.service.step cfg ctl label).map fun service =>
          { x with service := service, fds := x.fdsAfter label }
  | .ready handle =>
      match x.pc, x.service.pc (.io 0) with
      | .idle, .poll => some { x with pc := .accept handle }
      | _, _ => none
  | .accept out =>
      match x.pc with
      | .accept handle =>
          if x.fits out then
            match xvTcpAccept xvAddrLen out with
            | .again => some x
            | .back client => some ((x.opens out).accepted handle client)
          else none
      | _ => none
  | .nonblock getfl setfl =>
      match x.pc with
      | .nonblock handle client =>
          let (ret, fds) := xvNonblock x.fds client.fd getfl setfl
          let x := { x with fds := fds }
          if ret ≠ xvOk then some (x.refuse client.fd)
          else if tcpNodealy then some { x with pc := .nodelay handle client }
          else some { x with pc := .make handle client }
      | _ => none
  | .nodelay setsockopt =>
      match x.pc with
      | .nodelay handle client =>
          let (ret, noDelay) := xvTcpNodelay x.noDelay client.fd setsockopt
          let x := { x with noDelay := noDelay }
          if ret ≠ xvOk then some (x.refuse client.fd)
          else some { x with pc := .make handle client }
      | _ => none
  | .make mem =>
      match x.pc with
      | .make handle client => some (x.connectionInit handle client mem)
      | _ => none
  | .openFd fd =>
      if (x.fds fd).isNone then
        some { x with fds := x.fds.set fd (some {}), others := update x.others fd true }
      else none
  | .closeFd fd =>
      if x.others fd then
        some { x with fds := xvClose x.fds fd, others := update x.others fd false }
      else none

/-- The service has just been started; some fds are open. -/
structure Start (x : Accepting P) : Prop where
  service : x.service = State.init
  pc : x.pc = .idle
  fds : ∀ fd, (x.fds fd).isSome = x.others fd

end Accepting

end Libxv
