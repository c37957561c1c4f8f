import Tdm.Common.Node

/-!
# Outgoing connections

The server opens connections of its own, to the backend and to the SIM pool servers. What
the calls of the operating system answer is a parameter. A function is translated into its
result and the descriptors it opens and closes, in the order in which it does so.
-/

namespace Tdm.Common

open Tdm.Lib

/-- A call that changes which descriptors are open. -/
inductive FdEvent
  | opened (fd : ℤ)
  | closed (fd : ℤ)
deriving DecidableEq

/-- How `socket` and `connect` end in `ConnectToServerTimeOut`. -/
inductive Connect
  | socketFailed
  | refused (fd : ℤ)
  | connected (fd : ℤ)
deriving DecidableEq

/-- The result of `ConnectToServerTimeOut`. -/
def connectToServerTimeOut : Connect → ℤ
  | .socketFailed => -12
  | .refused _ => -16
  | .connected fd => fd

/-- The descriptors `ConnectToServerTimeOut` opens. One that is refused stays open. -/
def Connect.events : Connect → List FdEvent
  | .socketFailed => []
  | .refused fd => [.opened fd]
  | .connected fd => [.opened fd]

/-- How the calls of `Send_Sim_Data` end. Nothing here depends on the result of `recv`. -/
structure SimPoolCalls where
  connect : Connect
  write : ℤ
deriving DecidableEq

/-- The descriptors `Send_Sim_Data` opens and closes. -/
def SimPoolCalls.events (c : SimPoolCalls) : List FdEvent :=
  let fd := connectToServerTimeOut c.connect
  if fd ≤ 0 then c.connect.events
  else if c.write ≤ 0 then c.connect.events
  else c.connect.events ++ [.closed fd]

/-- The descriptors `Set_SimCards_Status` opens and closes. A card without number is not
reported. -/
def setSimCardsStatusEvents (sIMSI : List UInt8) (c : SimPoolCalls) : List FdEvent :=
  if sIMSI = List.replicate 18 48 then [] else c.events

/-- The descriptor `Close_Socket_Fd` closes. -/
def closeSocketFdEvents (node : DataSpm) (f : Member) : List FdEvent :=
  if 0 < node.mem.getInt f then [.closed (node.mem.getInt f)] else []

end Tdm.Common
