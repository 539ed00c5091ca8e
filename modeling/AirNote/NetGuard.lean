import AirNote.Lib.AddressBlock
import Mathlib.Tactic.Tauto

/-!
# The addresses the cloud reasoner connects to

The cloud reasoner sends what it reads from memory to a host of its
configuration. Every address the host name resolves to is screened before a
socket is opened, so that no name leads into the machine or its network. The
screen is compared with the special-purpose address registries, and the
connections with the screen: an address that is written in the URL is never
resolved.

## Main results

* `nonGlobal_eq` — the addresses the screen lets pass although they are not
  global.
* `connections_global_iff` — when every connection is to a global address.
-/

namespace AirNote.NetGuard

open Lib.AddressBlock

/-! ## Addresses -/

/-- `Ipv4Addr`, by its octets. -/
structure Ipv4Addr where
  o0 : UInt8
  o1 : UInt8
  o2 : UInt8
  o3 : UInt8
  deriving DecidableEq, Repr

/-- `Ipv6Addr`, by its segments. -/
structure Ipv6Addr where
  s0 : UInt16
  s1 : UInt16
  s2 : UInt16
  s3 : UInt16
  s4 : UInt16
  s5 : UInt16
  s6 : UInt16
  s7 : UInt16
  deriving DecidableEq, Repr

/-- `IpAddr`. -/
inductive IpAddr where
  | v4 (addr : Ipv4Addr)
  | v6 (addr : Ipv6Addr)
  deriving DecidableEq, Repr

namespace Ipv4Addr

/-- `is_loopback`. -/
def isLoopback (a : Ipv4Addr) : Bool := a.o0 == 127

/-- `is_private`. -/
def isPrivate (a : Ipv4Addr) : Bool :=
  a.o0 == 10 || (a.o0 == 172 && (16 ≤ a.o1 && a.o1 ≤ 31)) ||
    (a.o0 == 192 && a.o1 == 168)

/-- `is_link_local`. -/
def isLinkLocal (a : Ipv4Addr) : Bool := a.o0 == 169 && a.o1 == 254

/-- `is_unspecified`. -/
def isUnspecified (a : Ipv4Addr) : Bool :=
  a.o0 == 0 && a.o1 == 0 && a.o2 == 0 && a.o3 == 0

/-- `is_broadcast`. -/
def isBroadcast (a : Ipv4Addr) : Bool :=
  a.o0 == 255 && a.o1 == 255 && a.o2 == 255 && a.o3 == 255

/-- `is_documentation`. -/
def isDocumentation (a : Ipv4Addr) : Bool :=
  (a.o0 == 192 && a.o1 == 0 && a.o2 == 2) ||
    (a.o0 == 198 && a.o1 == 51 && a.o2 == 100) ||
    (a.o0 == 203 && a.o1 == 0 && a.o2 == 113)

/-- `is_multicast`. -/
def isMulticast (a : Ipv4Addr) : Bool := 224 ≤ a.o0 && a.o0 ≤ 239

/-- The address as a number. -/
def value (a : Ipv4Addr) : Nat :=
  a.o0.toNat * 2 ^ 24 + a.o1.toNat * 2 ^ 16 + a.o2.toNat * 2 ^ 8 +
    a.o3.toNat

end Ipv4Addr

namespace Ipv6Addr

/-- `is_loopback`. -/
def isLoopback (a : Ipv6Addr) : Bool := a == ⟨0, 0, 0, 0, 0, 0, 0, 1⟩

/-- `is_unspecified`. -/
def isUnspecified (a : Ipv6Addr) : Bool := a == ⟨0, 0, 0, 0, 0, 0, 0, 0⟩

/-- `is_multicast`. -/
def isMulticast (a : Ipv6Addr) : Bool := a.s0 &&& 0xff00 == 0xff00

/-- The IPv4 address in the last two segments. -/
def low (a : Ipv6Addr) : Ipv4Addr where
  o0 := (a.s6 >>> 8).toUInt8
  o1 := (a.s6 &&& 0xff).toUInt8
  o2 := (a.s7 >>> 8).toUInt8
  o3 := (a.s7 &&& 0xff).toUInt8

/-- `to_ipv4`: the compatible and the mapped form. -/
def toIpv4 (a : Ipv6Addr) : Option Ipv4Addr :=
  if a.s0 = 0 ∧ a.s1 = 0 ∧ a.s2 = 0 ∧ a.s3 = 0 ∧ a.s4 = 0 ∧
      (a.s5 = 0 ∨ a.s5 = 0xffff) then some a.low
  else none

/-- The address as a number. -/
def value (a : Ipv6Addr) : Nat :=
  a.s0.toNat * 2 ^ 112 + a.s1.toNat * 2 ^ 96 + a.s2.toNat * 2 ^ 80 +
    a.s3.toNat * 2 ^ 64 + a.s4.toNat * 2 ^ 48 + a.s5.toNat * 2 ^ 32 +
    a.s6.toNat * 2 ^ 16 + a.s7.toNat

end Ipv6Addr

/-! ## The screen -/

/-- `is_blocked_ip`, on IPv4. -/
def isBlockedV4 (a : Ipv4Addr) : Bool :=
  a.isLoopback || a.isPrivate || a.isLinkLocal || a.isUnspecified ||
    a.isBroadcast || a.isDocumentation || a.isMulticast || a.o0 == 0 ||
    (a.o0 == 100 && (a.o1 &&& 0xc0) == 64) ||
    (a.o0 == 198 && (a.o1 &&& 0xfe) == 18) || 240 ≤ a.o0

/-- The well-known prefix of NAT64. -/
def isNat64 (a : Ipv6Addr) : Bool :=
  a.s0 == 0x0064 && a.s1 == 0xff9b && a.s2 == 0 && a.s3 == 0 &&
    a.s4 == 0 && a.s5 == 0

/-- `is_blocked_ip`, on IPv6. -/
def isBlockedV6 (a : Ipv6Addr) : Bool :=
  a.toIpv4.any isBlockedV4 || (isNat64 a && isBlockedV4 a.low) ||
    (a.isLoopback || a.isUnspecified || a.isMulticast ||
      (a.s0 &&& 0xfe00) == 0xfc00 || (a.s0 &&& 0xffc0) == 0xfe80)

/-- `is_blocked_ip`. -/
def isBlockedIp : IpAddr → Bool
  | .v4 a => isBlockedV4 a
  | .v6 a => isBlockedV6 a

/-- The errors a resolution may end with. -/
inductive BoxError where
  /-- The name could not be looked up. -/
  | lookup
  | noAddresses
  | blockedAddress (bad : IpAddr)
  deriving DecidableEq, Repr

/-- `screen_addrs`. -/
def screenAddrs (addrs : List IpAddr) : Except BoxError (List IpAddr) :=
  if addrs = [] then .error .noAddresses
  else
    match addrs.find? isBlockedIp with
    | some bad => .error (.blockedAddress bad)
    | none => .ok addrs

/-- What the name servers answer to a name. -/
abbrev Dns := String → Option (List IpAddr)

/-- `PinnedResolver::resolve`. -/
def resolve (dns : Dns) (name : String) : Except BoxError (List IpAddr) :=
  match dns name with
  | none => .error .lookup
  | some addrs => screenAddrs addrs

/-! ## The requests -/

/-- The host of a URL, as the URL parser reads it. -/
inductive Host where
  | domain (name : String)
  | ip (addr : IpAddr)
  deriving DecidableEq, Repr

/-- `CloudProvider`. -/
inductive CloudProvider where
  | anthropic
  | openAiCompat
  | gemini
  deriving DecidableEq, Repr

/-- `CloudReasoner`, as far as it decides where a request goes. -/
structure CloudReasoner where
  provider : CloudProvider
  model : String
  baseUrl : Option String

/-- `ANTHROPIC_HOST`. -/
def anthropicHost : String := "api.anthropic.com"

/-- `GEMINI_HOST`. -/
def geminiHost : String := "generativelanguage.googleapis.com"

/-- `trim_end_matches('/')`. -/
def trimSlashes (s : String) : String :=
  String.ofList (s.toList.reverse.dropWhile (· = '/')).reverse

/-- The endpoint of the requests, if there is one. -/
def CloudReasoner.endpoint (r : CloudReasoner) : Option String :=
  match r.provider with
  | .anthropic => some s!"https://{anthropicHost}/v1/messages"
  | .openAiCompat =>
      r.baseUrl.map fun base => s!"{trimSlashes base}/v1/chat/completions"
  | .gemini =>
      some s!"https://{geminiHost}/v1beta/models/{r.model}:generateContent"

/-- The addresses a request may open a socket to. The client follows no
redirects; it resolves a name with the pinned resolver, and an address that
stands in the URL not at all. -/
def connectsTo (urlHost : String → Option Host) (r : CloudReasoner)
    (dns : Dns) : List IpAddr :=
  match r.endpoint.bind urlHost with
  | none => []
  | some (.ip addr) => [addr]
  | some (.domain name) =>
      match resolve dns name with
      | .error _ => []
      | .ok addrs => addrs

/-- The addresses of many requests, each with the answers of its time. -/
def connections (urlHost : String → Option Host) (r : CloudReasoner)
    (requests : List Dns) : List IpAddr :=
  requests.flatMap (connectsTo urlHost r)

/-! ## Global addresses -/

/-- A block of IPv4 addresses. -/
def net4 (a b c d len : Nat) : Block where
  base := a * 2 ^ 24 + b * 2 ^ 16 + c * 2 ^ 8 + d
  len := len

/-- A block of IPv6 addresses, by the first four segments. -/
def net6 (a b c d len : Nat) : Block where
  base := a * 2 ^ 112 + b * 2 ^ 96 + c * 2 ^ 80 + d * 2 ^ 64
  len := len

/-- The blocks of IPv4 that are not global, and multicast. -/
def reservedV4 : List Block :=
  [net4 0 0 0 0 8, net4 10 0 0 0 8, net4 100 64 0 0 10, net4 127 0 0 0 8,
    net4 169 254 0 0 16, net4 172 16 0 0 12, net4 192 0 2 0 24,
    net4 192 168 0 0 16, net4 198 18 0 0 15, net4 198 51 100 0 24,
    net4 203 0 113 0 24, net4 224 0 0 0 4, net4 240 0 0 0 4]

/-- The protocol assignments, but for the two addresses that are global. -/
def protocolAssignmentV4 (n : Nat) : Bool :=
  (net4 192 0 0 0 24).has 32 n &&
    !((net4 192 0 0 9 32).has 32 n || (net4 192 0 0 10 32).has 32 n)

/-- The address is not global. -/
def nonGlobalV4 (n : Nat) : Bool :=
  (reservedV4.any fun b => b.has 32 n) || protocolAssignmentV4 n

/-- The blocks of IPv6 that the screen knows. -/
def screenedV6 : List Block :=
  [⟨0, 128⟩, ⟨1, 128⟩, net6 0xfc00 0 0 0 7, net6 0xfe80 0 0 0 10,
    net6 0xff00 0 0 0 8]

/-- The blocks it does not: local NAT64, discard-only and dummy prefixes,
documentation, segment routing, and site-local addresses. -/
def unscreenedV6 : List Block :=
  [net6 0x64 0xff9b 1 0 48, net6 0x100 0 0 0 64, net6 0x100 0 0 1 64,
    net6 0x2001 0xdb8 0 0 32, net6 0x3fff 0 0 0 20, net6 0x5f00 0 0 0 16,
    net6 0xfec0 0 0 0 10]

/-- The protocol assignments, but for Teredo and the assignments that are
global. -/
def protocolAssignmentV6 (n : Nat) : Bool :=
  (net6 0x2001 0 0 0 23).has 128 n &&
    !([net6 0x2001 0 0 0 32, ⟨(net6 0x2001 1 0 0 0).base + 1, 128⟩,
      ⟨(net6 0x2001 1 0 0 0).base + 2, 128⟩,
      ⟨(net6 0x2001 1 0 0 0).base + 3, 128⟩, net6 0x2001 3 0 0 32,
      net6 0x2001 4 0x112 0 48, net6 0x2001 0x20 0 0 28,
      net6 0x2001 0x30 0 0 28].any fun b => b.has 128 n)

/-- The IPv4 addresses of the compatible, mapped and NAT64 forms. -/
def lowForms (n : Nat) : List Nat :=
  if (⟨0, 96⟩ : Block).has 128 n ||
      (⟨0xffff * 2 ^ 32, 96⟩ : Block).has 128 n ||
      (net6 0x64 0xff9b 0 0 96).has 128 n then [n % 2 ^ 32]
  else []

/-- The IPv4 addresses of the 6to4 and Teredo forms. Teredo writes the
address of the client inverted. -/
def tunnelForms (n : Nat) : List Nat :=
  (if (net6 0x2002 0 0 0 16).has 128 n then [n / 2 ^ 80 % 2 ^ 32] else []) ++
    (if (net6 0x2001 0 0 0 32).has 128 n then [2 ^ 32 - 1 - n % 2 ^ 32]
      else [])

/-- The address is not global, or stands for one that is not. -/
def nonGlobalV6 (n : Nat) : Bool :=
  ((screenedV6 ++ unscreenedV6).any fun b => b.has 128 n) ||
    protocolAssignmentV6 n || (lowForms n ++ tunnelForms n).any nonGlobalV4

/-- The address is not global. -/
def nonGlobal : IpAddr → Bool
  | .v4 a => nonGlobalV4 a.value
  | .v6 a => nonGlobalV6 a.value

/-- What the screen lets pass although it is not global. -/
def missed : IpAddr → Bool
  | .v4 a => protocolAssignmentV4 a.value
  | .v6 a =>
      (unscreenedV6.any fun b => b.has 128 a.value) ||
        protocolAssignmentV6 a.value ||
        (lowForms a.value).any protocolAssignmentV4 ||
        (tunnelForms a.value).any nonGlobalV4

/-! ## The screen of IPv4, block by block -/

namespace Ipv4Addr

theorem value_div (a : Ipv4Addr) :
    a.value / 2 ^ 24 = a.o0.toNat ∧
      a.value / 2 ^ 16 = a.o0.toNat * 256 + a.o1.toNat ∧
      a.value / 2 ^ 8 =
        (a.o0.toNat * 256 + a.o1.toNat) * 256 + a.o2.toNat := by
  have h1 := a.o1.toNat_lt
  have h2 := a.o2.toNat_lt
  have h3 := a.o3.toNat_lt
  rw [value]
  omega

theorem has_8 (a : Ipv4Addr) {b0 : UInt8} :
    (net4 b0.toNat 0 0 0 8).has 32 a.value = (a.o0 == b0) := by
  rw [Bool.eq_iff_iff, Block.has_iff, beq_iff_eq, ← UInt8.toNat_inj,
    ← a.value_div.1]
  simp only [net4]
  omega

theorem has_16 (a : Ipv4Addr) {b0 b1 : UInt8} :
    (net4 b0.toNat b1.toNat 0 0 16).has 32 a.value =
      (a.o0 == b0 && a.o1 == b1) := by
  have h1 := a.o1.toNat_lt
  have hb1 := b1.toNat_lt
  have hv := a.value_div.2.1
  rw [Bool.eq_iff_iff, Block.has_iff, Bool.and_eq_true, beq_iff_eq,
    beq_iff_eq, ← UInt8.toNat_inj, ← UInt8.toNat_inj]
  simp only [net4, Nat.reduceSub, hv]
  omega

theorem has_24 (a : Ipv4Addr) {b0 b1 b2 : UInt8} :
    (net4 b0.toNat b1.toNat b2.toNat 0 24).has 32 a.value =
      (a.o0 == b0 && a.o1 == b1 && a.o2 == b2) := by
  have h1 := a.o1.toNat_lt
  have h2 := a.o2.toNat_lt
  have hb1 := b1.toNat_lt
  have hb2 := b2.toNat_lt
  have hv := a.value_div.2.2
  rw [Bool.eq_iff_iff, Block.has_iff, Bool.and_eq_true, Bool.and_eq_true,
    beq_iff_eq, beq_iff_eq, beq_iff_eq, ← UInt8.toNat_inj,
    ← UInt8.toNat_inj, ← UInt8.toNat_inj]
  simp only [net4, Nat.reduceSub, hv]
  omega

/-- `100.64.0.0/10`, by its mask. -/
theorem has_shared (a : Ipv4Addr) :
    (net4 100 64 0 0 10).has 32 a.value =
      (a.o0 == 100 && (a.o1 &&& 0xc0) == 64) := by
  have h1 := a.o1.toNat_lt
  have hv := a.value_div.2.1
  have hmask : a.o1.toNat &&& 192 = 64 ↔ a.o1.toNat / 2 ^ 6 % 2 ^ 2 = 1 :=
    @and_mask_eq_iff _ 2 6 1
  rw [Bool.eq_iff_iff, Block.has_iff, Bool.and_eq_true, beq_iff_eq,
    beq_iff_eq, ← UInt8.toNat_inj, ← UInt8.toNat_inj, UInt8.toNat_and]
  simp only [net4, UInt8.reduceToNat, hmask]
  omega

/-- `198.18.0.0/15`, by its mask. -/
theorem has_benchmarking (a : Ipv4Addr) :
    (net4 198 18 0 0 15).has 32 a.value =
      (a.o0 == 198 && (a.o1 &&& 0xfe) == 18) := by
  have h1 := a.o1.toNat_lt
  have hv := a.value_div.2.1
  have hmask : a.o1.toNat &&& 254 = 18 ↔ a.o1.toNat / 2 ^ 1 % 2 ^ 7 = 9 :=
    @and_mask_eq_iff _ 7 1 9
  rw [Bool.eq_iff_iff, Block.has_iff, Bool.and_eq_true, beq_iff_eq,
    beq_iff_eq, ← UInt8.toNat_inj, ← UInt8.toNat_inj, UInt8.toNat_and]
  simp only [net4, UInt8.reduceToNat, hmask]
  omega

/-- `172.16.0.0/12`, by its range. -/
theorem has_private12 (a : Ipv4Addr) :
    (net4 172 16 0 0 12).has 32 a.value =
      (a.o0 == 172 && (16 ≤ a.o1 && a.o1 ≤ 31)) := by
  have h1 := a.o1.toNat_lt
  have hv := a.value_div.2.1
  rw [Bool.eq_iff_iff, Block.has_iff, Bool.and_eq_true, Bool.and_eq_true,
    beq_iff_eq, decide_eq_true_iff, decide_eq_true_iff, ← UInt8.toNat_inj,
    UInt8.le_iff_toNat_le, UInt8.le_iff_toNat_le]
  simp only [net4, UInt8.reduceToNat]
  omega

/-- `224.0.0.0/4`, by its range. -/
theorem has_multicast (a : Ipv4Addr) :
    (net4 224 0 0 0 4).has 32 a.value = (224 ≤ a.o0 && a.o0 ≤ 239) := by
  have hv := a.value_div.1
  rw [Bool.eq_iff_iff, Block.has_iff, Bool.and_eq_true, decide_eq_true_iff,
    decide_eq_true_iff, UInt8.le_iff_toNat_le, UInt8.le_iff_toNat_le]
  simp only [net4, UInt8.reduceToNat]
  omega

/-- `240.0.0.0/4`, by its range. -/
theorem has_reserved (a : Ipv4Addr) :
    (net4 240 0 0 0 4).has 32 a.value = decide (240 ≤ a.o0) := by
  have h0 := a.o0.toNat_lt
  have hv := a.value_div.1
  rw [Bool.eq_iff_iff, Block.has_iff, decide_eq_true_iff,
    UInt8.le_iff_toNat_le]
  simp only [net4, UInt8.reduceToNat]
  omega

end Ipv4Addr

/-- The screen of IPv4 knows the registered blocks but one. -/
theorem isBlockedV4_eq (a : Ipv4Addr) :
    isBlockedV4 a = reservedV4.any fun b => b.has 32 a.value := by
  have hzero : a.isUnspecified = true → (a.o0 == 0) = true := fun h => by
    simp only [Ipv4Addr.isUnspecified, Bool.and_eq_true] at h
    exact h.1.1.1
  have hbroad : a.isBroadcast = true → decide (240 ≤ a.o0) = true :=
    fun h => by
      simp only [Ipv4Addr.isBroadcast, Bool.and_eq_true, beq_iff_eq] at h
      rw [h.1.1.1]
      decide
  have h0 := @Ipv4Addr.has_8 a 0
  have h10 := @Ipv4Addr.has_8 a 10
  have h127 := @Ipv4Addr.has_8 a 127
  have h169 := @Ipv4Addr.has_16 a 169 254
  have h192 := @Ipv4Addr.has_16 a 192 168
  have d192 := @Ipv4Addr.has_24 a 192 0 2
  have d198 := @Ipv4Addr.has_24 a 198 51 100
  have d203 := @Ipv4Addr.has_24 a 203 0 113
  simp only [UInt8.reduceToNat] at h0 h10 h127 h169 h192 d192 d198 d203
  simp only [reservedV4, List.any_cons, List.any_nil, h0, h10, h127, h169,
    h192, d192, d198, d203, a.has_shared, a.has_benchmarking,
    a.has_private12, a.has_multicast, a.has_reserved]
  rw [Bool.eq_iff_iff, isBlockedV4, Ipv4Addr.isLoopback,
    Ipv4Addr.isPrivate, Ipv4Addr.isLinkLocal, Ipv4Addr.isDocumentation,
    Ipv4Addr.isMulticast]
  generalize a.isUnspecified = u at hzero ⊢
  generalize a.isBroadcast = w at hbroad ⊢
  generalize (a.o0 == 0) = z at hzero ⊢
  generalize decide (240 ≤ a.o0) = r at hbroad ⊢
  simp only [Bool.or_eq_true, Bool.false_eq_true, or_false]
  constructor
  · rintro ((((((((((h | (h | h) | h) | h) | h) | h) | (h | h) | h) | h) |
      h) | h) | h) | h) <;> simp only [h, hzero, hbroad, true_or, or_true]
  · rintro (h | h | h | h | h | h | h | h | h | h | h | h | h) <;>
      simp only [h, true_or, or_true]

/-! ## The screen of IPv6 -/

namespace Ipv6Addr

theorem value_div (a : Ipv6Addr) :
    a.value / 2 ^ 112 = a.s0.toNat ∧
      a.value / 2 ^ 32 =
        ((((a.s0.toNat * 2 ^ 16 + a.s1.toNat) * 2 ^ 16 + a.s2.toNat) *
          2 ^ 16 + a.s3.toNat) * 2 ^ 16 + a.s4.toNat) * 2 ^ 16 +
          a.s5.toNat ∧
      a.value % 2 ^ 32 = a.s6.toNat * 2 ^ 16 + a.s7.toNat := by
  have h1 := a.s1.toNat_lt
  have h2 := a.s2.toNat_lt
  have h3 := a.s3.toNat_lt
  have h4 := a.s4.toNat_lt
  have h5 := a.s5.toNat_lt
  have h6 := a.s6.toNat_lt
  have h7 := a.s7.toNat_lt
  rw [value]
  omega

/-- A block within the first segment, by its mask. -/
theorem has_mask (a : Ipv6Addr) {b len : Nat} (hlen : len ≤ 16) :
    (net6 b 0 0 0 len).has 128 a.value = true ↔
      a.s0.toNat / 2 ^ (16 - len) = b / 2 ^ (16 - len) := by
  have hk : 128 - len = 112 + (16 - len) := by omega
  have hbase : (net6 b 0 0 0 len).base / 2 ^ 112 = b := by
    simp only [net6]
    omega
  rw [Block.has_iff, show (net6 b 0 0 0 len).len = len from rfl, hk,
    Nat.pow_add, ← Nat.div_div_eq_div_mul, ← Nat.div_div_eq_div_mul, hbase,
    a.value_div.1]

theorem has_uniqueLocal (a : Ipv6Addr) :
    (net6 0xfc00 0 0 0 7).has 128 a.value =
      ((a.s0 &&& 0xfe00) == 0xfc00) := by
  have h0 := a.s0.toNat_lt
  have hmask : a.s0.toNat &&& 65024 = 64512 ↔
      a.s0.toNat / 2 ^ 9 % 2 ^ 7 = 126 := @and_mask_eq_iff _ 7 9 126
  rw [Bool.eq_iff_iff, a.has_mask (by decide), beq_iff_eq,
    ← UInt16.toNat_inj, UInt16.toNat_and]
  simp only [UInt16.reduceToNat, hmask]
  omega

theorem has_linkLocal (a : Ipv6Addr) :
    (net6 0xfe80 0 0 0 10).has 128 a.value =
      ((a.s0 &&& 0xffc0) == 0xfe80) := by
  have h0 := a.s0.toNat_lt
  have hmask : a.s0.toNat &&& 65472 = 65152 ↔
      a.s0.toNat / 2 ^ 6 % 2 ^ 10 = 1018 := @and_mask_eq_iff _ 10 6 1018
  rw [Bool.eq_iff_iff, a.has_mask (by decide), beq_iff_eq,
    ← UInt16.toNat_inj, UInt16.toNat_and]
  simp only [UInt16.reduceToNat, hmask]
  omega

theorem has_multicast (a : Ipv6Addr) :
    (net6 0xff00 0 0 0 8).has 128 a.value = a.isMulticast := by
  have h0 := a.s0.toNat_lt
  have hmask : a.s0.toNat &&& 65280 = 65280 ↔
      a.s0.toNat / 2 ^ 8 % 2 ^ 8 = 255 := @and_mask_eq_iff _ 8 8 255
  rw [Bool.eq_iff_iff, a.has_mask (by decide), isMulticast,
    beq_iff_eq, ← UInt16.toNat_inj, UInt16.toNat_and]
  simp only [UInt16.reduceToNat, hmask]
  omega

theorem value_inj {a b : Ipv6Addr} (h : a.value = b.value) : a = b := by
  obtain ⟨a0, a1, a2, a3, a4, a5, a6, a7⟩ := a
  obtain ⟨b0, b1, b2, b3, b4, b5, b6, b7⟩ := b
  simp only [value] at h
  have := a1.toNat_lt
  have := a2.toNat_lt
  have := a3.toNat_lt
  have := a4.toNat_lt
  have := a5.toNat_lt
  have := a6.toNat_lt
  have := a7.toNat_lt
  have := b1.toNat_lt
  have := b2.toNat_lt
  have := b3.toNat_lt
  have := b4.toNat_lt
  have := b5.toNat_lt
  have := b6.toNat_lt
  have := b7.toNat_lt
  simp only [mk.injEq, ← UInt16.toNat_inj]
  omega

/-- A single address. -/
theorem has_single (a b : Ipv6Addr) :
    (⟨b.value, 128⟩ : Block).has 128 a.value = (a == b) := by
  rw [Bool.eq_iff_iff, Block.has_iff, beq_iff_eq]
  constructor
  · intro h
    refine value_inj ?_
    simpa using h
  · rintro rfl
    rfl

/-- The last two segments. -/
theorem low_value (a : Ipv6Addr) : a.low.value = a.value % 2 ^ 32 := by
  have h6 := a.s6.toNat_lt
  have h7 := a.s7.toNat_lt
  have hbyte : ∀ n : Nat, n &&& 255 = n % 2 ^ 8 := fun n =>
    Nat.and_two_pow_sub_one_eq_mod n 8
  rw [a.value_div.2.2, Ipv4Addr.value, low]
  simp only [UInt16.toNat_toUInt8, UInt16.toNat_shiftRight,
    UInt16.toNat_and, UInt16.reduceToNat, Nat.reduceMod,
    Nat.shiftRight_eq_div_pow, hbyte]
  omega

/-- The forms that carry an address in the last two segments. -/
theorem lowForms_eq (a : Ipv6Addr) :
    lowForms a.value =
      if a.toIpv4.isSome || isNat64 a then [a.low.value] else [] := by
  have h1 := a.s1.toNat_lt
  have h2 := a.s2.toNat_lt
  have h3 := a.s3.toNat_lt
  have h4 := a.s4.toNat_lt
  have h5 := a.s5.toNat_lt
  have hv := a.value_div.2.1
  have hcond : ((⟨0, 96⟩ : Block).has 128 a.value ||
      (⟨0xffff * 2 ^ 32, 96⟩ : Block).has 128 a.value ||
      (net6 0x64 0xff9b 0 0 96).has 128 a.value) =
        (a.toIpv4.isSome || isNat64 a) := by
    rw [Bool.eq_iff_iff, Bool.or_eq_true, Bool.or_eq_true, Bool.or_eq_true,
      Block.has_iff, Block.has_iff, Block.has_iff, toIpv4, isNat64]
    simp only [Option.isSome_ite, Bool.and_eq_true, beq_iff_eq,
      ← UInt16.toNat_inj, UInt16.reduceToNat, net6, Nat.reduceSub, hv]
    omega
  rw [lowForms, hcond, a.low_value]

end Ipv6Addr

/-- The screen of IPv6 knows the screened blocks and the addresses in the
last two segments. -/
theorem isBlockedV6_eq (a : Ipv6Addr) :
    isBlockedV6 a = ((screenedV6.any fun b => b.has 128 a.value) ||
      (lowForms a.value).any fun n => reservedV4.any fun b => b.has 32 n) := by
  have hzero : (⟨0, 128⟩ : Block).has 128 a.value = a.isUnspecified :=
    a.has_single ⟨0, 0, 0, 0, 0, 0, 0, 0⟩
  have hone : (⟨1, 128⟩ : Block).has 128 a.value = a.isLoopback :=
    a.has_single ⟨0, 0, 0, 0, 0, 0, 0, 1⟩
  have hlow : ((lowForms a.value).any fun n =>
      reservedV4.any fun b => b.has 32 n) =
        (a.toIpv4.any isBlockedV4 || (isNat64 a && isBlockedV4 a.low)) := by
    have hto : a.toIpv4.any isBlockedV4 =
        (a.toIpv4.isSome && isBlockedV4 a.low) := by
      rw [Ipv6Addr.toIpv4]
      split <;> simp
    rw [a.lowForms_eq, hto, ← Bool.and_or_distrib_right]
    cases a.toIpv4.isSome || isNat64 a with
    | true => simp [isBlockedV4_eq]
    | false => rfl
  simp only [screenedV6, List.any_cons, List.any_nil, hzero, hone,
    a.has_uniqueLocal, a.has_linkLocal, a.has_multicast, hlow]
  rw [isBlockedV6, Bool.or_false]
  ac_rfl

/-- The screen lets pass exactly what it misses. -/
theorem nonGlobal_eq (ip : IpAddr) :
    nonGlobal ip = (isBlockedIp ip || missed ip) := by
  cases ip with
  | v4 a =>
      rw [nonGlobal, nonGlobalV4, isBlockedIp, missed, isBlockedV4_eq]
  | v6 a =>
      have hor : (lowForms a.value).any nonGlobalV4 =
          (((lowForms a.value).any fun n =>
            reservedV4.any fun b => b.has 32 n) ||
            (lowForms a.value).any protocolAssignmentV4) := by
        rw [a.lowForms_eq]
        split
        · simp only [List.any_cons, List.any_nil, Bool.or_false, nonGlobalV4]
        · rfl
      rw [nonGlobal, nonGlobalV6, isBlockedIp, missed, isBlockedV6_eq,
        List.any_append, List.any_append, hor]
      ac_rfl

/-! ## The connections -/

/-- A name is resolved where no address of the answer is blocked. -/
theorem resolve_ok_iff {dns : Dns} {name : String} {addrs : List IpAddr} :
    resolve dns name = .ok addrs ↔
      dns name = some addrs ∧ addrs ≠ [] ∧
        ∀ addr ∈ addrs, isBlockedIp addr = false := by
  rw [resolve]
  cases hdns : dns name with
  | none => simp
  | some found =>
      dsimp only
      rw [screenAddrs]
      by_cases hempty : found = []
      · rw [if_pos hempty]
        constructor
        · intro h
          cases h
        · rintro ⟨heq, hne, -⟩
          exact absurd (Option.some.inj heq ▸ hempty) hne
      · rw [if_neg hempty]
        cases hbad : found.find? isBlockedIp with
        | none =>
            have hnone : ∀ addr ∈ found, isBlockedIp addr = false :=
              fun addr haddr => Bool.eq_false_iff.mpr
                (List.find?_eq_none.mp hbad addr haddr)
            constructor
            · intro h
              cases h
              exact ⟨rfl, hempty, hnone⟩
            · rintro ⟨heq, -⟩
              rw [Option.some.inj heq]
        | some bad =>
            constructor
            · intro h
              cases h
            · rintro ⟨heq, -, hall⟩
              obtain rfl := Option.some.inj heq
              have := List.find?_some hbad
              rw [hall bad (List.mem_of_find?_eq_some hbad)] at this
              cases this

/-- Where the screen is enough: an address in the URL is not looked at, so it
has to be global by itself, and an answer that passes has to be free of the
addresses the screen misses. -/
def ScreenSuffices (urlHost : String → Option Host) (r : CloudReasoner)
    (requests : List Dns) : Prop :=
  match r.endpoint.bind urlHost with
  | none => True
  | some (.ip addr) =>
      requests = [] ∨ (isBlockedIp addr = false ∧ missed addr = false)
  | some (.domain name) =>
      ∀ dns ∈ requests, ∀ addrs, dns name = some addrs →
        (∃ bad ∈ addrs, isBlockedIp bad = true) ∨
          ∀ addr ∈ addrs, missed addr = false

theorem nonGlobal_eq_false {ip : IpAddr} :
    nonGlobal ip = false ↔ isBlockedIp ip = false ∧ missed ip = false := by
  rw [nonGlobal_eq, Bool.or_eq_false_iff]

/-- What a name is resolved to is global where the answer is blocked or
nothing of it is missed. -/
theorem resolve_global_iff {dns : Dns} {name : String} :
    (∀ addrs, resolve dns name = .ok addrs →
        ∀ addr ∈ addrs, nonGlobal addr = false) ↔
      ∀ addrs, dns name = some addrs →
        (∃ bad ∈ addrs, isBlockedIp bad = true) ∨
          ∀ addr ∈ addrs, missed addr = false := by
  constructor
  · intro h addrs hdns
    by_cases hbad : ∃ bad ∈ addrs, isBlockedIp bad = true
    · exact .inl hbad
    · refine .inr fun addr haddr => ?_
      have hpass : ∀ addr ∈ addrs, isBlockedIp addr = false :=
        fun addr haddr => Bool.eq_false_iff.mpr
          fun hblocked => hbad ⟨addr, haddr, hblocked⟩
      exact (nonGlobal_eq_false.1 (h addrs (resolve_ok_iff.2
        ⟨hdns, List.ne_nil_of_mem haddr, hpass⟩) addr haddr)).2
  · intro h addrs hok addr haddr
    obtain ⟨hdns, -, hpass⟩ := resolve_ok_iff.1 hok
    refine nonGlobal_eq_false.2 ⟨hpass addr haddr, ?_⟩
    rcases h addrs hdns with ⟨bad, hbad, hblocked⟩ | hmissed
    · rw [hpass bad hbad] at hblocked
      cases hblocked
    · exact hmissed addr haddr

/-- Every connection is to a global address exactly where the screen is
enough. -/
theorem connections_global_iff (urlHost : String → Option Host)
    (r : CloudReasoner) (requests : List Dns) :
    (∀ ip ∈ connections urlHost r requests, nonGlobal ip = false) ↔
      ScreenSuffices urlHost r requests := by
  have hconn : (∀ ip ∈ connections urlHost r requests,
      nonGlobal ip = false) ↔ ∀ dns ∈ requests,
        ∀ ip ∈ connectsTo urlHost r dns, nonGlobal ip = false := by
    simp only [connections, List.mem_flatMap]
    exact ⟨fun h dns hdns ip hip => h ip ⟨dns, hdns, hip⟩,
      fun h ip ⟨dns, hdns, hip⟩ => h dns hdns ip hip⟩
  rw [hconn, ScreenSuffices]
  cases hhost : r.endpoint.bind urlHost with
  | none => simp [connectsTo, hhost]
  | some host =>
      cases host with
      | ip addr =>
          simp only [connectsTo, hhost, List.mem_singleton, forall_eq,
            nonGlobal_eq_false]
          cases requests with
          | nil => simp
          | cons dns rest =>
              constructor
              · exact fun h => .inr (h dns List.mem_cons_self)
              · rintro (h | h)
                · cases h
                · exact fun _ _ => h
      | domain name =>
          refine forall_congr' fun dns => imp_congr_right fun _ => ?_
          rw [← resolve_global_iff]
          simp only [connectsTo, hhost]
          cases resolve dns name with
          | error e => simp
          | ok found => simp

/-- A relay whose name is answered with the 6to4 form of `127.0.0.1`, and a
URL with the address itself. -/
theorem connects_to_loopback :
    (∃ ip ∈ connections
        (fun url => if url = "https://relay.example/v1/chat/completions" then
          some (.domain "relay.example") else none)
        { provider := .openAiCompat, model := "m"
          baseUrl := some "https://relay.example" }
        [fun _ => some [.v6 ⟨0x2002, 0x7f00, 1, 0, 0, 0, 0, 1⟩]],
      nonGlobal ip = true) ∧
    ∃ ip ∈ connections
        (fun url => if url = "https://127.0.0.1/v1/chat/completions" then
          some (.ip (.v4 ⟨127, 0, 0, 1⟩)) else none)
        { provider := .openAiCompat, model := "m"
          baseUrl := some "https://127.0.0.1/" }
        [fun _ => none],
      nonGlobal ip = true := by
  constructor <;> decide +kernel

end AirNote.NetGuard
