import Tdm.Lib.Layout
import Tdm.Lib.CNumber

/-!
# The device record of `tdm.h`

`Data_Spm` holds everything the server remembers about one device. Texts are copied into
its members with their own length and without a terminator, and some copies run over the
end of their member, so the record is kept as the bytes a 64-bit compiler lays it out in
(`dataSpmSize` bytes up to the two pointers at its end) and a member is a range of these.
The pointers `pool` and `list` are not bytes here: `pool` is a field of its own and the
links belong to the registry. A copy that would reach them has no defined result.
-/

namespace Tdm.Common

open Tdm.Lib

/-- `offsetof(Data_Spm, pool)`. -/
def dataSpmSize : ℕ := 912

/-- A member of `Data_Spm`. -/
abbrev Member := Field dataSpmSize

namespace Member

def socketSpm : Member := ⟨0, 4, by decide⟩
def fd1 : Member := ⟨4, 4, by decide⟩
def len : Member := ⟨8, 1, by decide⟩
def state : Member := ⟨10, 1, by decide⟩
def result : Member := ⟨11, 1, by decide⟩
def sIMSI : Member := ⟨12, 18, by decide⟩
def virFlag : Member := ⟨30, 1, by decide⟩
def ifVPN : Member := ⟨31, 1, by decide⟩
def sn : Member := ⟨32, 16, by decide⟩
def takeTime : Member := ⟨48, 2, by decide⟩
def type : Member := ⟨50, 1, by decide⟩
def cmdTag : Member := ⟨51, 1, by decide⟩
def localeFlag : Member := ⟨53, 1, by decide⟩
def ttCnt : Member := ⟨54, 1, by decide⟩
def imsi : Member := ⟨55, 9, by decide⟩
def version : Member := ⟨64, 4, by decide⟩
def versionAPK : Member := ⟨68, 4, by decide⟩
def buff : Member := ⟨72, 256, by decide⟩
def outtime : Member := ⟨336, 8, by decide⟩
def speedStr : Member := ⟨352, 40, by decide⟩
def lastStart : Member := ⟨392, 1, by decide⟩
def orderType : Member := ⟨393, 1, by decide⟩
def factoryFlag : Member := ⟨394, 1, by decide⟩
def vpn : Member := ⟨395, 1, by decide⟩
def mcc : Member := ⟨396, 2, by decide⟩
def miniteRemain : Member := ⟨398, 2, by decide⟩
def threshold : Member := ⟨400, 2, by decide⟩
def dataLimit : Member := ⟨402, 2, by decide⟩
def serverInfo : Member := ⟨416, 128, by decide⟩
def ifTest : Member := ⟨544, 4, by decide⟩
def vpnc : Member := ⟨548, 127, by decide⟩
def vpnFlag : Member := ⟨675, 1, by decide⟩

/-! The members of `node`, an `imsi_info` that starts at byte 680. -/

def ip : Member := ⟨680, 16, by decide⟩
def apn : Member := ⟨696, 64, by decide⟩
def vusimActiveNum : Member := ⟨760, 126, by decide⟩
def speedType : Member := ⟨886, 1, by decide⟩
def needFile : Member := ⟨887, 1, by decide⟩
def selnet : Member := ⟨888, 8, by decide⟩
def imei : Member := ⟨896, 8, by decide⟩
def port : Member := ⟨904, 2, by decide⟩
def simBankID : Member := ⟨906, 1, by decide⟩
def channelID : Member := ⟨907, 1, by decide⟩
def ifRoam : Member := ⟨908, 1, by decide⟩
def isNet : Member := ⟨909, 1, by decide⟩
def isApn : Member := ⟨910, 1, by decide⟩
def vusimActiveFlag : Member := ⟨911, 1, by decide⟩

/-- The four bytes an `int` stored at `Port` covers. -/
def portInt : Member := ⟨904, 4, by decide⟩

/-! The members of the `AccessAuth_Def` that a login finds in `Buff`. -/

def authMCC : Member := ⟨72, 4, by decide⟩
/-- `DeviceSN + 19`, two bytes. -/
def authTakeTime : Member := ⟨115, 2, by decide⟩
/-- `LastIMSI`, four bytes. -/
def authVersionAPK : Member := ⟨119, 4, by decide⟩

theorem size_authTakeTime : authTakeTime.size = takeTime.size := rfl

theorem size_authVersionAPK : authVersionAPK.size = versionAPK.size := rfl

/-- The 15 bytes of `SN` that identify a device. -/
def key : Member := ⟨32, 15, by decide⟩

end Member

/-- `Data_Spm` without its list links. -/
structure DataSpm where
  mem : CArray dataSpmSize
  pool : Option ℕ
deriving DecidableEq

namespace DataSpm

/-- `memset(para, 0, sizeof(Data_Spm))`. -/
def zero : DataSpm := ⟨CArray.zero dataSpmSize, none⟩

def setNat (node : DataSpm) (f : Member) (v : ℕ) : DataSpm :=
  { node with mem := node.mem.setNat f v }

def setInt (node : DataSpm) (f : Member) (v : ℤ) : DataSpm :=
  { node with mem := node.mem.setInt f v }

/-- `memcpy` to a member from an array of its size. -/
def copyField {m : ℕ} (node : DataSpm) (f : Member) (b : CArray m) (g : Field m)
    (h : g.size = f.size) : DataSpm :=
  { node with mem := node.mem.copyField f b g h }

/-- `memcpy(node->f, src, |src|)`. -/
def copyTo (node : DataSpm) (f : Member) (src : List UInt8) : Option DataSpm :=
  (node.mem.copyTo f src).map fun mem => { node with mem }

/-- The bytes that identify the device. -/
def key (node : DataSpm) : List UInt8 := node.mem.read Member.key

end DataSpm

/-- `Init_Data_Spm`. -/
def initDataSpm : DataSpm := DataSpm.zero.setInt Member.socketSpm (-1)

/-- `Close_Socket_Fd` on a member of a node. -/
def closeSocketFd (node : DataSpm) (f : Member) : DataSpm :=
  if 0 < node.mem.getInt f then node.setInt f 0 else node

/-! ## Serial numbers -/

/-- What `char *SN` points at where a function reads 15 bytes through it: at least that
many bytes, then the terminator. -/
structure SnArg where
  bytes : List UInt8
  long : 15 ≤ bytes.length

/-- The serial number of a device of the runs in this project is long enough. -/
theorem fifteen_le_serial : 15 ≤ (text "172150210000937").length := by decide

/-- The bytes that `memcmp(.., SN, 15)` and `memcpy(.., SN, 15)` read. -/
def SnArg.key (sn : SnArg) : List UInt8 := sn.bytes.take 15

@[simp] theorem SnArg.length_key (sn : SnArg) : sn.key.length = 15 := by
  have := sn.long
  simp only [SnArg.key, List.length_take]
  omega

/-- `memcpy(node->SN, SN, 15)`. -/
def DataSpm.copySN (node : DataSpm) (sn : SnArg) : DataSpm :=
  { node with mem := node.mem.put 32 sn.key (by rw [sn.length_key]; decide) }

/-- `Is_Valid_SN`. -/
def isValidSN (sn : List UInt8) : Bool :=
  let snNum := atoll sn % 2 ^ 64
  (172150210000000 < snNum && snNum < 172150211000000) ||
    (860172008100000 < snNum && snNum < 860172009000000)

/-! ## What a store leaves as it was -/

theorem DataSpm.read_setNat (node : DataSpm) {f g : Member} (v : ℕ) (h : g.Disjoint f) :
    (node.setNat g v).mem.read f = node.mem.read f :=
  CArray.read_setNat_of_disjoint node.mem v h

theorem DataSpm.read_setInt (node : DataSpm) {f g : Member} (v : ℤ) (h : g.Disjoint f) :
    (node.setInt g v).mem.read f = node.mem.read f := node.read_setNat _ h

theorem DataSpm.read_copyField {m : ℕ} (node : DataSpm) {f g : Member} (b : CArray m)
    (k : Field m) (hk : k.size = g.size) (h : g.Disjoint f) :
    (node.copyField g b k hk).mem.read f = node.mem.read f :=
  CArray.read_copyField_of_disjoint node.mem b k hk h

theorem DataSpm.read_copySN (node : DataSpm) (sn : SnArg) {f : Member}
    (h : Member.key.Disjoint f) : (node.copySN sn).mem.read f = node.mem.read f := by
  apply CArray.read_put_of_disjoint node.mem f (by rw [sn.length_key]; decide)
  rw [sn.length_key]
  exact h.symm

theorem read_closeSocketFd (node : DataSpm) {f g : Member} (h : g.Disjoint f) :
    (closeSocketFd node g).mem.read f = node.mem.read f := by
  unfold closeSocketFd
  split
  · exact node.read_setInt 0 h
  · rfl

/-! ## What an assignment stores -/

theorem DataSpm.getNat_setNat (node : DataSpm) (f : Member) (v : ℕ) :
    (node.setNat f v).mem.getNat f = v % 256 ^ f.size := CArray.getNat_setNat_self node.mem f v

theorem DataSpm.getNat_setInt (node : DataSpm) (f : Member) (v : ℤ) :
    (node.setInt f v).mem.getNat f = (v % (2 : ℤ) ^ (8 * f.size)).toNat :=
  CArray.getNat_setInt_self node.mem f v

/-! ## What the stores do to the key -/

theorem DataSpm.key_setNat (node : DataSpm) {f : Member} (v : ℕ)
    (h : f.Disjoint Member.key) : (node.setNat f v).key = node.key := node.read_setNat v h

theorem DataSpm.key_setInt (node : DataSpm) {f : Member} (v : ℤ)
    (h : f.Disjoint Member.key) : (node.setInt f v).key = node.key := node.read_setInt v h

@[simp] theorem DataSpm.key_copySN (node : DataSpm) (sn : SnArg) :
    (node.copySN sn).key = sn.key :=
  CArray.read_put_self node.mem Member.key (by rw [sn.length_key]; decide) sn.length_key

theorem DataSpm.length_key (node : DataSpm) : node.key.length = 15 :=
  CArray.length_read node.mem Member.key

theorem key_closeSocketFd (node : DataSpm) {f : Member} (h : f.Disjoint Member.key) :
    (closeSocketFd node f).key = node.key := read_closeSocketFd node h

end Tdm.Common
