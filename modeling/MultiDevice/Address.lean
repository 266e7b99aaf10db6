import MultiDevice.Bytes.Block
import Std.Data.ExtTreeSet

/-!
# Accounts and device addresses

An account is named by a text. Each of its devices has a number, and a device address is the pair.
Addresses are ordered by account, then by number.

## Main definitions

* `domain?`: the part of an account name after its first `@`
* `DeviceAddress`: one device of one account
* `DeviceAddress.toBytes`: the bytes that stand for an address in authenticated data
* `DeviceSet`: finite sets of addresses, listed in order
-/

namespace MultiDevice

/-- The name of an account. -/
abbrev Account : Type := String

/-- The part of an account name after its first `@`, if it has one. -/
def domain? (account : Account) : Option String :=
  match account.toList.dropWhile (· != '@') with
  | [] => none
  | _ :: domain => some (String.ofList domain)

/-- One device of an account. -/
structure DeviceAddress where
  /-- The account that the device belongs to. -/
  account : Account
  /-- The number of the device within the account. -/
  device : UInt32
  deriving DecidableEq, Repr

namespace DeviceAddress

instance : Ord DeviceAddress :=
  ⟨compareLex (compareOn DeviceAddress.account) (compareOn DeviceAddress.device)⟩

instance : Std.TransOrd DeviceAddress :=
  inferInstanceAs (Std.TransCmp
    (compareLex (compareOn DeviceAddress.account) (compareOn DeviceAddress.device)))

instance : Std.LawfulEqOrd DeviceAddress where
  eq_of_compare {a b} h := by
    have h : compareLex (compareOn account) (compareOn device) a b = .eq := h
    rw [compareLex_eq_eq] at h
    cases a; cases b
    simp only [compareOn, Std.LawfulEqCmp.compare_eq_iff_eq] at h
    simp [h]

/-- The account and the number, with a colon between them. -/
def text (a : DeviceAddress) : String := a.account ++ ":" ++ toString a.device.toNat

/-- The account name followed by the device number in four bytes. -/
def toBytes (a : DeviceAddress) : Bytes :=
  a.account.toUTF8.data.toList ++ Bytes.bigEndian 4 a.device.toNat

end DeviceAddress

/-- A finite set of device addresses. -/
abbrev DeviceSet : Type := Std.ExtTreeSet DeviceAddress

/-- A finite set of accounts. -/
abbrev AccountSet : Type := Std.ExtTreeSet Account

end MultiDevice
