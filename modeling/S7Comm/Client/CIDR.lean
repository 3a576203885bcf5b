import S7Comm.Client.Connect
import S7Comm.Lib.IPNet

/-! The addresses that discovery probes (`client/discover.go`): the hosts of an IPv4 network, one at a time or as a
    list. `net.ParseCIDR` is a parameter; its error is a text. -/

namespace S7Comm
open Go

/-- The loop of `incIP`, from the last byte on: a byte that overflows carries into the one before it. -/
def incFromLast : Bytes → Bytes
  | [] => []
  | b :: rest => if b + 1 > 0 then (b + 1) :: rest else (b + 1) :: incFromLast rest

def incIP (ip : Bytes) : Bytes := (incFromLast ip.reverse).reverse

/-- A network of at most 2^20 addresses. -/
def maxDiscoveryHostBits : Nat := 20

section Stream
variable {σ : Type} (ctxErr : σ → Option GoError × σ) (send : String → σ → Bool × σ)

/-- The loop of `streamCIDR`, with `left` rounds to go. A callback that returns false ends it with `ctx.Err()`. -/
def streamFrom (total : Nat) (skipEnds : Bool) : (left idx : Nat) → (ip : Bytes) → Eff σ GoError Unit
  | 0, _, _ => pure ()
  | left + 1, idx, ip =>
    if skipEnds ∧ (idx = 0 ∨ idx = total - 1) then
      streamFrom total skipEnds left (idx + 1) (if idx = 0 then incIP ip else ip)
    else fun st =>
      match send (ipString ip) st with
      | (false, st') => worldErr ctxErr st'
      | (true, st') => streamFrom total skipEnds left (idx + 1) (incIP ip) st'

/-- Yields the hosts of the network to the callback, which may change the state and stops the stream by false. -/
def streamCIDR (parseCIDR : String → Except String IPNet) (cidr : String) : Eff σ GoError Unit :=
  match parseCIDR cidr with
  | .error err => Eff.fail (.validation err)
  | .ok ipnet =>
    if to4 ipnet.ip = none then Eff.fail (.validation s!"discovery is IPv4-only; got IPv6 CIDR {cidr}")
    else
      let (ones, bits) := maskSize ipnet.mask
      if bits ≠ 32 then Eff.fail (.validation s!"expected IPv4 mask, got {bits} bits")
      else
        let hostBits := bits - ones
        if hostBits > maxDiscoveryHostBits then
          Eff.fail (.validation s!"CIDR too large for discovery (max /{32 - maxDiscoveryHostBits}): {cidr}")
        else
          let total := 1 <<< hostBits
          -- `copy` into an address of four bytes
          let ip := (ipMask ipnet.ip ipnet.mask ++ [0, 0, 0, 0]).take 4
          streamFrom ctxErr send total (total > 2) total 0 ip

end Stream

/-- The loop of `expandCIDR`. It has no bound of its own; `none` means that it has not ended after `fuel` tests of its
    condition. -/
def expandFrom (ipnet : IPNet) : (fuel : Nat) → (ip : Bytes) → Option (List String)
  | 0, _ => none
  | fuel + 1, ip =>
    if ipnet.contains ip then (expandFrom ipnet fuel (incIP ip)).map (ipString ip :: ·)
    else some []

def expandCIDR (parseCIDR : String → Except String IPNet) (fuel : Nat) (cidr : String) : Option (Res (List String)) :=
  match parseCIDR cidr with
  | .error err => some (.fail (.validation err))
  | .ok ipnet =>
    if to4 ipnet.ip = none then some (.fail (.validation s!"discovery is IPv4-only; got IPv6 CIDR {cidr}"))
    else
      (expandFrom ipnet fuel (ipMask ipnet.ip ipnet.mask)).map fun ips =>
        .ok (if ips.length > 2 then (ips.take (ips.length - 1)).drop 1 else ips)

end S7Comm
