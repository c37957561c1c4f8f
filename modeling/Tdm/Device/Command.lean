import Tdm.Device.AccessAuth
import Tdm.Common.Sockets

/-!
# Commands of the devices

The tags `Cmd_Test` accepts, and the answers of the world outside that a handler waits for.
A frame that a handler writes to the device is the list of its bytes.
-/

namespace Tdm.Device

open Tdm.Lib Tdm.Common

inductive Cmd
  | ip | accessAuth | simfileRequest | cmdTT | hb | cfmd | adn | localSta | getApnInfo | hbNew
  | logout | autonet | lowVsim | vpnProfileRqst | vpnReleaseCmd | deal
deriving DecidableEq

/-- The `TAG_` constants. -/
def Cmd.tag : Cmd → UInt8
  | .ip => 0x02
  | .accessAuth => 0x81
  | .simfileRequest => 0x82
  | .cmdTT => 0x83
  | .hb => 0x84
  | .cfmd => 0x85
  | .adn => 0x86
  | .localSta => 0x87
  | .getApnInfo => 0x8A
  | .hbNew => 0x8B
  | .logout => 0x9C
  | .autonet => 0x9E
  | .lowVsim => 0x9F
  | .vpnProfileRqst => 0xA5
  | .vpnReleaseCmd => 0xA6
  | .deal => 0xB0

/-- One `write` to a descriptor. -/
structure Write where
  fd : ℤ
  bytes : List UInt8
deriving DecidableEq

/-- `Cmd_Test`, with `none` for its result -1. -/
def cmdTest (tag : UInt8) : Option Cmd :=
  [.accessAuth, .simfileRequest, .cmdTT, .hbNew, .vpnProfileRqst, .vpnReleaseCmd, .deal, .lowVsim,
    .logout, .cfmd, .localSta, .hb, .autonet, .getApnInfo, .adn, .ip].find? (·.tag == tag)

/-- How the exchange of `Data_Coding_Spm` ends. -/
inductive SpmExchange
  | sendFailed
  /-- `GetMsgFromSock` fails; some bytes may have come in before -/
  | recvFailed (stored : List UInt8)
  | reply (bytes : List UInt8) (some : bytes ≠ [])

/-- What the world outside answers while one message is handled. -/
structure World where
  /-- there is memory for a new node -/
  malloc : Bool
  /-- the exchange with the backend about a deal -/
  deal : Exchange
  /-- the exchange with the backend about a speed string -/
  speed : Exchange
  /-- the connection to the SIM pool server -/
  connect : Connect
  /-- the report of a card whose SIM pool server cannot be reached -/
  status : SimPoolCalls
  spm : SpmExchange
  /-- `time(NULL)` -/
  now : ℤ

/-- A world in which there is memory and nobody answers. -/
def World.silent : World where
  malloc := true
  deal := .connectFailed
  speed := .connectFailed
  connect := .socketFailed
  status := ⟨.socketFailed, -1⟩
  spm := .sendFailed
  now := 0

/-- `Hex2String` without the terminator it stores behind the digits. -/
def hex2String (src : List UInt8) : List UInt8 :=
  src.flatMap fun b => [hexDigit (b.toNat / 16), hexDigit (b.toNat % 16)]
where
  hexDigit (v : ℕ) : UInt8 := if v < 10 then UInt8.ofNat (48 + v) else UInt8.ofNat (55 + v)

end Tdm.Device
