import Sigchat.Lib.Loop

/-!
# Closing a websocket

`SignalWS::close` of `signal_ws.rs`. It queues a close frame, a failure of which
is dropped, and flushes until that fails; nothing is read. What the calls of
`flush` return is a parameter.
-/

namespace Sigchat.SignalWs

open Sigchat.Lib

/-- `tungstenite::Error`, as far as `close` tells its values apart. -/
inductive FlushError where
  | connectionClosed
  | alreadyClosed
  | other
  deriving DecidableEq

/-- What the successive calls of `flush` return. -/
abbrev Flushes := Nat → Except FlushError Unit

/-- How the loop is left. Both ends are logged. -/
inductive CloseEnd where
  | closed
  | failed
  deriving DecidableEq

/-- The body of the loop; `none` where it goes on. -/
def closeEnd : Except FlushError Unit → Option CloseEnd
  | .ok () => none
  | .error .connectionClosed | .error .alreadyClosed => some .closed
  | .error .other => some .failed

def close (flush : Flushes) : Computation CloseEnd := scan closeEnd flush

end Sigchat.SignalWs
