import DtlsClient.Run

/-!
# The lifetime of a socket

`createSocket` checks its options and opens a UDP socket.  One timer watches over the socket, first until
the UDP socket listens and then until the handshake is finished.  From `udp_onListening` on the socket
is a client as in `Run.lean`.
-/

open Library

namespace DtlsClient

/-- A number of JavaScript. -/
inductive JsNumber where
  | nan
  | infinity (negative : Bool)
  | finite (q : Rat)
deriving DecidableEq

namespace JsNumber

instance (n : Nat) : OfNat JsNumber n := ⟨.finite n⟩

/-- `a < b`, which is false for `NaN`. -/
def lt : JsNumber → JsNumber → Bool
  | .finite a, .finite b => a < b
  | .finite _, .infinity negative => !negative
  | .infinity negative, .finite _ => negative
  | .infinity negative, .infinity negative' => negative && !negative'
  | _, _ => false

/-- `Number.isInteger` -/
def isInteger : JsNumber → Bool
  | .finite q => q.den = 1
  | _ => false

def isFalsy : JsNumber → Bool
  | .nan => true
  | .finite q => q = 0
  | .infinity _ => false

/-- The delay that `setTimeout` makes of its argument: what does not lie between 1 and `2 ^ 31 - 1`
milliseconds becomes one millisecond, and fractions are cut off. -/
def timerDelay : JsNumber → Nat
  | .finite q => if q < 1 ∨ 2147483647 < q then 1 else q.floor.toNat
  | _ => 1

end JsNumber

/-- The values that `checkOptions` tells apart. -/
inductive JsValue where
  | undefined
  | null
  | boolean (b : Bool)
  | number (n : JsNumber)
  | string (s : String)
  | object
  | function
deriving DecidableEq

/-- `dtls.Options` as they are passed to `createSocket`, without those that the handshake reads. -/
structure SocketOptions where
  type : JsValue
  address : JsValue
  port : JsValue
  psk : JsValue
  timeout : Option JsNumber := none
  listenPort : JsValue := .undefined

namespace SocketOptions

/-- `this.options.timeout`, as the constructor sets it. -/
def effectiveTimeout (options : SocketOptions) : JsNumber :=
  let timeout := (options.timeout.filter fun n => !n.isFalsy).getD 1000
  if JsNumber.lt 100 timeout then timeout else 100

def delay (options : SocketOptions) : Nat := options.effectiveTimeout.timerDelay

end SocketOptions

namespace JsValue

def isNonEmptyString : JsValue → Bool
  | .string s => s.length ≠ 0
  | _ => false

/-- A number that is neither less than 1 nor greater than 65535. -/
def inPortRange : JsValue → Bool
  | .number n => !(n.lt 1 || JsNumber.lt 65535 n)
  | _ => false

def isInteger : JsValue → Bool
  | .number n => n.isInteger
  | _ => false

end JsValue

/-- What is asked of the options, with the error where it does not hold. -/
def SocketOptions.checks (opts : SocketOptions) : List (Bool × String) :=
  [(opts.type = .string "udp4" || opts.type = .string "udp6",
      "The connection options must have a \"type\" property with value \"udp4\" or \"udp6\"!"),
    (opts.address.isNonEmptyString,
      "The connection options must contain the remote address as a string!"),
    (opts.port.inPortRange, "The connection options must contain a remote port from 1 to 65535!"),
    (opts.listenPort = .undefined || opts.listenPort = .null ||
        opts.listenPort.isInteger && opts.listenPort.inPortRange,
      "The listen port must be between 1 and 65535!"),
    -- `typeof null` is "object" as well
    (opts.psk = .object || opts.psk = .null,
      "The connection options must contain a PSK dictionary object!")]

/-- Throws if the options do not adhere to the interface; `none` stands for `undefined` and `null`. -/
def checkOptions : Option SocketOptions → Except JsError SocketOptions
  | none => .error (.error "No connection options were given!")
  | some opts =>
      match opts.checks.find? fun check => !check.1 with
      | some (_, message) => .error (.error message)
      | none => .ok opts

/-- The callback that waits in `_connectionTimeout`. -/
inductive Timer where
  | expectConnection
  | expectHandshake
deriving DecidableEq, Repr

structure Lifetime where
  options : SocketOptions
  /-- milliseconds since the socket was created -/
  now : Nat
  udpConnected : Bool
  /-- the timer that is running, and when it is due -/
  connectionTimeout : Option (Timer × Nat)
  config : Config

namespace Lifetime

def socket (l : Lifetime) : Socket := l.config.socket

def setSocket (l : Lifetime) (s : Socket) : Lifetime := { l with config := { l.config with socket := s } }

/-- The constructor of `Socket`. -/
def new (options : SocketOptions) : Lifetime where
  options := options
  now := 0
  udpConnected := false
  connectionTimeout := some (.expectConnection, options.delay)
  config := ⟨.new, []⟩

/-- The UDP socket listens once, and its listeners are gone when it is closed. -/
def udpOnListening (opts : Options) (crypto : Crypto) (random : Random) (l : Lifetime) : Lifetime :=
  if l.udpConnected || l.socket.isClosed then l
  else
    { l with
      udpConnected := true
      connectionTimeout := some (.expectHandshake, l.now + l.options.delay)
    }.setSocket (finalState (Socket.udpOnListening opts crypto random) l.socket)

def expectConnection (l : Lifetime) : Socket :=
  if !l.socket.isClosed && !l.udpConnected then
    l.socket.killConnection (some (.error "The connection timed out"))
  else l.socket

-- What a timer calls.
def callTimer (l : Lifetime) : Timer → Socket
  | .expectConnection => l.expectConnection
  | .expectHandshake => l.socket.expectHandshake

/-- The timer fires, but not before it is due. -/
def timeout (l : Lifetime) : Lifetime :=
  match l.connectionTimeout with
  | none => l
  | some (timer, due) =>
      if l.now < due then l
      else { l with connectionTimeout := none }.setSocket (l.callTimer timer)

/-- `clearTimeout` is called where the handshake is finished and by `killConnection`, which closes the
socket in every case but one. -/
def clears (a : Action) (c c' : Config) : Bool :=
  (!c.socket.handshakeFinished && c'.socket.handshakeFinished) ||
    match a with
    | .udpClose => false
    | _ => !c.socket.isClosed && c'.socket.isClosed

/-- Before the UDP socket listens there is neither a record layer nor a handshake handler: `send`, `close`
and `sendAlert` throw, and no datagram comes. -/
def takes (l : Lifetime) : Action → Bool
  | .udpClose => true
  | .udpError _ => true
  | _ => l.udpConnected

def act (opts : Options) (crypto : Crypto) (a : Action) (l : Lifetime) : Lifetime :=
  if l.takes a then
    let c := DtlsClient.step opts crypto l.config a
    { l with
      connectionTimeout := if clears a l.config c then none else l.connectionTimeout
      config := c }
  else l

inductive Action where
  | listening (random : Random)
  | timeout
  /-- a millisecond passes -/
  | elapse
  /-- what else happens to a client -/
  | act (a : DtlsClient.Action) (hact : a ≠ .handshakeTimeout)

def step (opts : Options) (crypto : Crypto) (l : Lifetime) : Action → Lifetime
  | .listening random => l.udpOnListening opts crypto random
  | .timeout => l.timeout
  | .elapse => { l with now := l.now + 1 }
  | .act a _ => l.act opts crypto a

end Lifetime

/-- The life of a socket from its construction on. -/
def lifetime (opts : Options) (crypto : Crypto) (options : SocketOptions) :
    Machine Lifetime Lifetime.Action where
  init := .new options
  step := Lifetime.step opts crypto

def createSocket (options : Option SocketOptions) : Except JsError Lifetime := do
  pure (.new (← checkOptions options))

end DtlsClient
