import Mathlib.Data.Fintype.Basic

namespace AgentBoilerplate.Notify

structure Ipv4Addr where
  a : UInt8
  b : UInt8
  c : UInt8
  d : UInt8
deriving DecidableEq, Repr

namespace Ipv4Addr

def isPrivate (addr : Ipv4Addr) : Bool :=
  addr.a = 10 ∨ addr.a = 172 ∧ 16 ≤ addr.b ∧ addr.b ≤ 31 ∨ addr.a = 192 ∧ addr.b = 168

def isLoopback (addr : Ipv4Addr) : Bool := addr.a = 127

def isLinkLocal (addr : Ipv4Addr) : Bool := addr.a = 169 ∧ addr.b = 254

def isBroadcast (addr : Ipv4Addr) : Bool := addr = ⟨255, 255, 255, 255⟩

def isDocumentation (addr : Ipv4Addr) : Bool :=
  addr.a = 192 ∧ addr.b = 0 ∧ addr.c = 2 ∨ addr.a = 198 ∧ addr.b = 51 ∧ addr.c = 100 ∨
    addr.a = 203 ∧ addr.b = 0 ∧ addr.c = 113

def isUnspecified (addr : Ipv4Addr) : Bool := addr = ⟨0, 0, 0, 0⟩

def isMulticast (addr : Ipv4Addr) : Bool := 224 ≤ addr.a ∧ addr.a ≤ 239

def octetText (octet : UInt8) : List Char := Nat.toDigits 10 octet.toNat

def text (addr : Ipv4Addr) : String :=
  String.ofList (['.'].intercalate
    [octetText addr.a, octetText addr.b, octetText addr.c, octetText addr.d])

-- At most three digits, without a leading zero.
def readOctet (chars : List Char) : Option UInt8 :=
  if chars ≠ [] ∧ chars.length ≤ 3 ∧ chars.all Char.isDigit ∧
      (chars.length = 1 ∨ chars.head? ≠ some '0') ∧ Nat.ofDigitChars 10 chars 0 ≤ 255 then
    some (UInt8.ofNat (Nat.ofDigitChars 10 chars 0))
  else
    none

-- `str::parse`.
def parse (text : String) : Option Ipv4Addr :=
  match text.toList.splitOn '.' with
  | [a, b, c, d] => do
      return ⟨← readOctet a, ← readOctet b, ← readOctet c, ← readOctet d⟩
  | _ => none

theorem readOctet_octetText (octet : UInt8) : readOctet (octetText octet) = some octet := by
  have hall : ∀ n : Fin 256, readOctet (Nat.toDigits 10 n) = some (UInt8.ofNat n) := by
    decide +kernel
  have hoctet := hall ⟨octet.toNat, octet.toNat_lt⟩
  rw [UInt8.ofNat_toNat] at hoctet
  exact hoctet

theorem octetText_digits (octet : UInt8) : '.' ∉ octetText octet := by
  have hall : ∀ n : Fin 256, '.' ∉ Nat.toDigits 10 (n : Nat) := by
    decide +kernel
  exact hall ⟨octet.toNat, octet.toNat_lt⟩

-- What is written is read.
theorem parse_text (addr : Ipv4Addr) : parse addr.text = some addr := by
  have hparts : ∀ part ∈ [octetText addr.a, octetText addr.b, octetText addr.c, octetText addr.d],
      '.' ∉ part := by
    intro part hpart
    simp only [List.mem_cons, List.not_mem_nil, or_false] at hpart
    rcases hpart with rfl | rfl | rfl | rfl <;> exact octetText_digits _
  unfold parse text
  rw [String.toList_ofList, List.splitOn_intercalate '.' hparts (by simp)]
  simp only [readOctet_octetText]
  rfl

theorem parse_bracketed (text : String) : parse ("[" ++ text) = none := by
  have hbracket : ∀ rest, readOctet ('[' :: rest) = none := by
    intro rest
    unfold readOctet
    exact if_neg fun h => by simp at h
  unfold parse
  rw [String.toList_append]
  have hsplit : ("[".toList ++ text.toList).splitOn '.' =
      (text.toList.splitOn '.').modifyHead ('[' :: ·) := List.splitOnP_cons_eq_if_modifyHead _ _
  rw [hsplit]
  cases text.toList.splitOn '.' with
  | nil => rfl
  | cons first rest =>
      rw [List.modifyHead_cons]
      split
      · rename_i a b c d heq
        rw [← (List.cons.inj heq).1, hbracket]
        rfl
      · rfl

end Ipv4Addr

structure Ipv6Addr where
  s0 : UInt16
  s1 : UInt16
  s2 : UInt16
  s3 : UInt16
  s4 : UInt16
  s5 : UInt16
  s6 : UInt16
  s7 : UInt16
deriving DecidableEq, Repr

namespace Ipv6Addr

def isLoopback (addr : Ipv6Addr) : Bool := addr = ⟨0, 0, 0, 0, 0, 0, 0, 1⟩

def isUnspecified (addr : Ipv6Addr) : Bool := addr = ⟨0, 0, 0, 0, 0, 0, 0, 0⟩

def isMulticast (addr : Ipv6Addr) : Bool := addr.s0 &&& 0xff00 = 0xff00

-- `::ffff:a.b.c.d`.
def toIpv4Mapped (addr : Ipv6Addr) : Option Ipv4Addr :=
  if addr.s0 = 0 ∧ addr.s1 = 0 ∧ addr.s2 = 0 ∧ addr.s3 = 0 ∧ addr.s4 = 0 ∧ addr.s5 = 0xffff then
    some ⟨(addr.s6 >>> 8).toUInt8, addr.s6.toUInt8, (addr.s7 >>> 8).toUInt8, addr.s7.toUInt8⟩
  else
    none

end Ipv6Addr

inductive IpAddr where
  | v4 (addr : Ipv4Addr)
  | v6 (addr : Ipv6Addr)
deriving DecidableEq, Repr

def isBlockedIpv4 (addr : Ipv4Addr) : Bool :=
  addr.isPrivate ∨ addr.isLoopback ∨ addr.isLinkLocal ∨ addr.isBroadcast ∨ addr.isDocumentation ∨
    addr.isUnspecified ∨ addr.isMulticast ∨
    -- carrier-grade NAT
    addr.a = 100 ∧ 0x40 ≤ addr.b ∧ addr.b ≤ 0x7f

def isBlockedIp : IpAddr → Bool
  | .v4 addr => isBlockedIpv4 addr
  | .v6 addr => addr.isLoopback ∨ addr.isUnspecified ∨ addr.isMulticast ∨
      addr.toIpv4Mapped.any isBlockedIpv4 ∨
      -- unique local and link-local
      addr.s0 &&& 0xfe00 = 0xfc00 ∨ addr.s0 &&& 0xffc0 = 0xfe80

end AgentBoilerplate.Notify
