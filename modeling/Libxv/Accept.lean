/-
Accepting a connection: `xv_tcp_accept` and `xv_tcp_nodelay` of `xv_socket.c`.

`xv_tcp_accept` calls `accept` until it is not interrupted, and writes down where the client
is: its address as a string, by `inet_ntop`, and its port.
-/
import Libxv.Socket

namespace Libxv

/-! ### Addresses as strings -/

/-- The decimal digits of an octet. -/
def octetDigits (octet : UInt8) : List Char := Nat.toDigits 10 octet.toNat

/-- The four octets, with dots between them. -/
def dottedChars (addr : InAddr) : List Char :=
  ['.'].intercalate (addr.octets.toList.map octetDigits)

/-- `inet_ntop(AF_INET, ..)` into an array of this size, which must hold the string and a NUL. -/
def inetNtop (addr : InAddr) (size : Nat) : Option String :=
  if (dottedChars addr).length < size then some (String.ofList (dottedChars addr)) else none

/-- `ntohs(port)`. -/
def ntohs (port : UInt16) : Nat := port.toNat

/-- `XV_ADDR_LEN`. -/
def xvAddrLen : Nat := 32

/-- What `strncpy(dst, src, n)` leaves in `dst`, if that is a string. -/
def strncpy (src : String) (n : Nat) : Option String := if src.length < n then some src else none

/-! ### The functions -/

/-- What `accept` answers. -/
inductive AcceptOut
  /-- It fails with `EINTR`. -/
  | interrupted
  | error
  /-- A new fd, and where the client is. -/
  | client (fd : Nat) (sa : SockAddr)

/-- What `xv_tcp_accept` returns and writes: the fd, the string in `client_ip`, if `inet_ntop`
has written one, and the port. -/
structure Client where
  fd : Nat
  addr : Option String
  port : Nat

/-- A round of the loop of `xv_tcp_accept`. -/
inductive AcceptRound
  | again
  /-- It returns an fd, or `none` for `XV_ERR`. -/
  | back (client : Option Client)

def xvTcpAccept (clientIpLen : Nat) : AcceptOut → AcceptRound
  | .interrupted => .again
  | .error => .back none
  | .client fd sa =>
      .back (some { fd := fd, addr := inetNtop sa.sinAddr clientIpLen, port := ntohs sa.sinPort })

/-- The sockets that have `TCP_NODELAY` set, by fd. -/
abbrev NoDelay := Nat → Bool

def xvTcpNodelay (noDelay : NoDelay) (fd : Nat) (setsockopt : Bool) : Int × NoDelay :=
  if setsockopt then (xvOk, Function.update noDelay fd true) else (xvErr, noDelay)

end Libxv
