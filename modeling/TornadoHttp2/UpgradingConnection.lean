import TornadoHttp2.Connection

/-! An HTTP/1 request that may become stream 1 of an HTTP/2 connection.
`switch_protocols` is cut at its one `yield`; what the application calls until
it has gone on is recorded. -/

namespace TornadoHttp2

/-- The calls that an application makes on the connection of its request. -/
inductive ConnCall
  | writeHeaders (startLine : StartLine Bytes) (headers : HTTPHeaders Bytes) (chunk : Bytes)
    (callback : Option Nat)
  | write (chunk : Bytes) (callback : Option Nat)
  | finish
  | setCloseCallback (callback : Option Nat)
  | setMaxBodySize (maxBodySize : Option Nat)
  | setBodyTimeout (bodyTimeout : Option Nat)
  deriving DecidableEq, Repr

/-- `Stream` has no `set_max_body_size` and no `set_body_timeout`. -/
def Stream.call : ConnCall → OnStream Unit
  | .writeHeaders startLine headers chunk callback => writeHeaders startLine headers chunk callback
  | .write chunk callback => write chunk callback
  | .finish => finish
  | .setCloseCallback _ => pure ()
  | .setMaxBodySize _ => Prog.raise .attributeError
  | .setBodyTimeout _ => Prog.raise .attributeError

/-- `self.conn`: tornado's `HTTP1Connection`, which is known by the calls that
reach it, or stream 1 of a connection. -/
inductive RequestConn
  | http1 (calls : List ConnCall)
  | stream (s : System)

/-- Where `switch_protocols` stands. An exception ends up in its future, which
nobody reads. -/
inductive Switching
  | notCalled
  | waiting
  | returned
  | raised (e : PyException)
  deriving DecidableEq, Repr

/-- `output` is what `switch_protocols` writes to the socket on its own,
`settingsWritten` the future `_initial_settings_written`, and `finishCalls`
counts the calls of the delegate's `finish`. -/
structure UpgradingConnection where
  conn : RequestConn
  http2Params : Params
  upgrading : Bool
  writtenHeaders : Option (StartLine Bytes × HTTPHeaders Bytes × Bytes × Option Nat)
  writtenChunks : List (Bytes × Option Nat)
  writeFinished : Bool
  closeCallback : Option Nat
  maxBodySize : Option Nat
  bodyTimeout : Option Nat
  requestStartLine : Option (Option Bytes × Option Bytes)
  output : Bytes
  switching : Switching
  settingsWritten : Bool
  finishCalls : Nat

abbrev OnUpgrading := Prog UpgradingConnection PyException

/-- `c.isspace()` of one character. -/
def isSpaceChar (c : Bytes) : Bool :=
  match c with
  | [b] => isSpace b || (0x1c ≤ b && b ≤ 0x1f)
  | c => isWideSpace (codePoint c)

def strip (s : Bytes) : Bytes :=
  (((chars s).dropWhile isSpaceChar).reverse.dropWhile isSpaceChar).reverse.flatten

/-- `set(i.strip() for i in headers['Upgrade'].split(','))`. -/
def upgrades (headers : HTTPHeaders Bytes) : Except PyException (List Bytes) := do
  match ← headers.optional.get (ascii "Upgrade") with
  | none => .error .attributeError
  | some value => .ok ((value.splitOn 0x2c).map strip)

/-- The answer to the request that asks for the upgrade. -/
def switchingResponse : Bytes :=
  ascii "HTTP/1.1 101 Switching Protocols\r\nConnection: Upgrade\r\nUpgrade: h2c\r\n\r\n"

namespace UpgradingConnection

open Prog

def new (http2Params : Params) : UpgradingConnection where
  conn := .http1 []
  http2Params := http2Params
  upgrading := false
  writtenHeaders := none
  writtenChunks := []
  writeFinished := false
  closeCallback := none
  maxBodySize := none
  bodyTimeout := none
  requestStartLine := none
  output := []
  switching := .notCalled
  settingsWritten := false
  finishCalls := 0

/-- A method of `self.conn` if that is a stream. -/
def onStream (m : OnStream Unit) : OnUpgrading Unit := do
  let c ← get
  match c.conn with
  | .http1 _ => pure ()
  | .stream s => zoom (fun _ => s) (fun c s => { c with conn := .stream s }) (System.onStream 1 m)

/-- A call on `self.conn`. -/
def forward (call : ConnCall) : OnUpgrading Unit := do
  let c ← get
  match c.conn with
  | .http1 calls => modify fun c => { c with conn := .http1 (calls ++ [call]) }
  | .stream _ => onStream (Stream.call call)

/-- The methods of `_UpgradingConnection` set an attribute or hand the call on. -/
def record (f : UpgradingConnection → UpgradingConnection) (call : ConnCall) : OnUpgrading Unit := do
  let c ← get
  if c.upgrading = true then modify f else forward call

def setCloseCallback (callback : Option Nat) : OnUpgrading Unit :=
  record (fun c => { c with closeCallback := callback }) (.setCloseCallback callback)

def setMaxBodySize (maxBodySize : Option Nat) : OnUpgrading Unit :=
  record (fun c => { c with maxBodySize }) (.setMaxBodySize maxBodySize)

def setBodyTimeout (bodyTimeout : Option Nat) : OnUpgrading Unit :=
  record (fun c => { c with bodyTimeout }) (.setBodyTimeout bodyTimeout)

def writeHeaders (startLine : StartLine Bytes) (headers : HTTPHeaders Bytes) (chunk : Bytes)
    (callback : Option Nat) : OnUpgrading Unit :=
  record (fun c => { c with writtenHeaders := some (startLine, headers, chunk, callback) })
    (.writeHeaders startLine headers chunk callback)

def write (chunk : Bytes) (callback : Option Nat) : OnUpgrading Unit :=
  record (fun c => { c with writtenChunks := c.writtenChunks ++ [(chunk, callback)] }) (.write chunk callback)

def finish : OnUpgrading Unit := record (fun c => { c with writeFinished := true }) .finish

def call : ConnCall → OnUpgrading Unit
  | .writeHeaders startLine headers chunk callback => writeHeaders startLine headers chunk callback
  | .write chunk callback => write chunk callback
  | .finish => finish
  | .setCloseCallback callback => setCloseCallback callback
  | .setMaxBodySize maxBodySize => setMaxBodySize maxBodySize
  | .setBodyTimeout bodyTimeout => setBodyTimeout bodyTimeout

/-- `switch_protocols` up to its `yield`. A stream cannot be detached. -/
def switchProtocols : OnUpgrading Unit := do
  let c ← get
  match c.conn, c.requestStartLine with
  | .http1 _, some (method, path) => modify fun c => { c with
      output := c.output ++ switchingResponse
      conn := .stream ((System.start false c.http2Params).run [.upgrade method path])
      switching := .waiting }
  | _, _ => raise .attributeError

/-- `if value is not None: m(value)`. -/
def ifSome {α : Type} (value : Option α) (m : α → OnUpgrading Unit) : OnUpgrading Unit :=
  match value with
  | none => pure ()
  | some a => m a

/-- `for write in self.written_chunks`. -/
def writeAll : List (Bytes × Option Nat) → OnUpgrading Unit
  | [] => pure ()
  | (chunk, callback) :: chunks => do
    forward (.write chunk callback)
    writeAll chunks

/-- `switch_protocols` after its `yield`; the delegate's `finish` may raise. -/
def resumeSwitch (raises : Bool) : OnUpgrading Unit := do
  let c ← get
  ifSome c.writtenHeaders fun (startLine, headers, chunk, callback) =>
    forward (.writeHeaders startLine headers chunk callback)
  writeAll c.writtenChunks
  when (c.writeFinished = true) (forward .finish)
  ifSome c.maxBodySize fun maxBodySize => forward (.setMaxBodySize (some maxBodySize))
  ifSome c.bodyTimeout fun bodyTimeout => forward (.setBodyTimeout (some bodyTimeout))
  ifSome c.closeCallback fun callback => do
    forward (.setCloseCallback (some callback))
    modify fun c => { c with closeCallback := none }
  modify fun c => { c with upgrading := false }
  modify fun c => { c with finishCalls := c.finishCalls + 1 }
  when (raises = true) (onStream Stream.reset)

/-- `_UpgradingRequestAdapter.headers_received`. -/
def headersReceived (method path : Option Bytes) (headers : HTTPHeaders Bytes) :
    OnUpgrading Unit := do
  when (headers.contains (ascii "Upgrade") = true) do
    let protocols ← ofExcept (upgrades headers)
    when (protocols.contains (ascii "h2c") = true) (modify fun c => { c with upgrading := true })
  modify fun c => { c with requestStartLine := some (method, path) }

/-- `_UpgradingRequestAdapter.finish`. -/
def requestFinished : OnUpgrading Unit := do
  let c ← get
  if c.upgrading = true then
    catching switchProtocols fun e => modify fun c => { c with switching := .raised e }
  else modify fun c => { c with finishCalls := c.finishCalls + 1 }

/-- What can happen next: the application makes a call, the HTTP/1 request is
complete, the HTTP/2 connection has written its first SETTINGS frame, something
happens on it, or `switch_protocols` goes on. -/
inductive Action
  | call (call : ConnCall)
  | requestFinished
  | settingsWritten
  | http2 (a : System.Action)
  | resume (raises : Bool)

/-- A request is complete once, and the HTTP/2 connection begins with its first
SETTINGS frame. -/
def perform : Action → OnUpgrading Unit
  | .call c => call c
  | .requestFinished => do
    let c ← get
    when (c.switching = .notCalled ∧ c.finishCalls = 0) requestFinished
  | .settingsWritten => do
    let c ← get
    when (c.switching = .waiting) (modify fun c => { c with settingsWritten := true })
  | .http2 a => do
    let c ← get
    match c.conn with
    | .http1 _ => pure ()
    | .stream s => when (c.settingsWritten = true) (modify fun c => { c with conn := .stream (s.step a) })
  | .resume raises => do
    let c ← get
    when (c.switching = .waiting ∧ c.settingsWritten = true)
      (catching
        (do
          resumeSwitch raises
          modify fun c => { c with switching := .returned })
        fun e => modify fun c => { c with switching := .raised e })

/-- An exception of a call is the caller's. -/
def step (c : UpgradingConnection) (a : Action) : UpgradingConnection := ((perform a).run c).2

def run (c : UpgradingConnection) (actions : List Action) : UpgradingConnection := actions.foldl step c

/-- The connection of a request whose headers have been received. -/
def start (http2Params : Params) (method path : Option Bytes) (headers : HTTPHeaders Bytes) :
    UpgradingConnection :=
  ((headersReceived method path headers).run (.new http2Params)).2

end UpgradingConnection

end TornadoHttp2
