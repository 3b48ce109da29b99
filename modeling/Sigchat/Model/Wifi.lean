import Sigchat.Lib.Request

/-!
# The network

`SigChat::wifi`: as long as the user wants to connect, the radio is switched on
and asked for its address once a second, under a progress bar. The loop is a
program over the requests to the network manager, the modals server and the
clock; how often the user may be asked is its fuel.
-/

namespace Sigchat.Wifi

open Sigchat.Lib

-- ---------------------------------------------------------------------------
-- Requests
-- ---------------------------------------------------------------------------

/-- `com_rs::DhcpState`, as far as it is told apart. -/
inductive DhcpState where
  | bound
  | other
  deriving DecidableEq

/-- Requests that are unwrapped. -/
inductive Act where
  | addListItem (item : String)
  | getRadiobutton (prompt : String)
  | connectionManagerWifiOnAndRun
  | startProgress (title : String) (start finish current : Nat)
  | ticktimerNew
  | sleepMs (ms : Nat)
  | updateProgress (current : Nat)
  | finishProgress
  deriving DecidableEq

inductive NetReq where
  | act (a : Act)
  | getRadioIndex
  | getIpv4Config
  deriving DecidableEq

/-- An act succeeds or not; there is no radio index if asking for it fails. -/
abbrev NetResp : NetReq → Type
  | .act _ => Bool
  | .getRadioIndex => Option Nat
  | .getIpv4Config => Option DhcpState

inductive Panic where
  | unwrap
  | expect (msg : String)
  deriving DecidableEq

/-- `expect` and `unwrap`: go on if the act succeeds. -/
def orPanic {α : Type} (a : Act) (p : Panic) (rest : Prog NetResp (Except Panic α)) :
    Prog NetResp (Except Panic α) :=
  .call (.act a) fun
    | true => rest
    | false => .done (.error p)

def onOk {α β : Type} (p : Prog NetResp (Except Panic α))
    (f : α → Prog NetResp (Except Panic β)) : Prog NetResp (Except Panic β) := do
  match ← p with
  | .error e => return .error e
  | .ok a => f a

-- ---------------------------------------------------------------------------
-- The loop
-- ---------------------------------------------------------------------------

def wifiTimeout : Nat := 10

def wifiTryModal : Prog NetResp (Except Panic Bool) :=
  orPanic (.addListItem "yes") (.expect "failed radio yes") <|
  orPanic (.addListItem "no") (.expect "failed radio no") <|
  orPanic (.getRadiobutton "Connect to WiFi?") (.expect "failed radiobutton modal") <|
  .call .getRadioIndex fun
    | some button => .done (.ok (button = 0))
    | none => .done (.ok false)

/-- The seconds under the progress bar: whether the radio is bound in one. -/
def watch : List Nat → Prog NetResp (Except Panic Bool)
  | [] => .done (.ok false)
  | wait :: waits =>
    orPanic (.sleepMs 1000) .unwrap <|
    orPanic (.updateProgress wait) (.expect "no progress update") <|
    .call .getIpv4Config fun conf =>
      if conf = some .bound then
        orPanic .finishProgress (.expect "failed progress finish") (.done (.ok true))
      else watch waits

/-- What follows a yes. -/
def tryConnect : Prog NetResp (Except Panic Bool) :=
  orPanic .connectionManagerWifiOnAndRun .unwrap <|
  orPanic (.startProgress "Connecting ..." 0 10 0) (.expect "no progress bar") <|
  orPanic .ticktimerNew .unwrap <|
  watch (List.range wifiTimeout)

/-- An iteration: the result, unless the loop goes on. -/
def wifiTry : Prog NetResp (Except Panic (Option Bool)) :=
  onOk wifiTryModal fun yes =>
    if yes then onOk tryConnect fun connected =>
      .done (.ok (if connected then some true else none))
    else .done (.ok (some false))

/-- The loop, with a result unless it goes on after so many iterations. -/
def wifiLoop : Nat → Prog NetResp (Except Panic (Option Bool))
  | 0 => .done (.ok none)
  | n + 1 => onOk wifiTry fun
    | some connected => .done (.ok (some connected))
    | none => wifiLoop n

/-- `SigChat::wifi`; `hostedMode` is `HOSTED_MODE`. -/
def wifi (hostedMode : Bool) (n : Nat) : Prog NetResp (Except Panic (Option Bool)) :=
  if hostedMode then .done (.ok (some true))
  else .call .getIpv4Config fun conf =>
    if conf = some .bound then .done (.ok (some true)) else wifiLoop n

end Sigchat.Wifi
