import S7Comm.Client.CIDR

/-! The hosts of a network. Both ways to list them go through the numbers of the addresses in order; the stream leaves
    out the ends by their index, the list by cutting them off. -/

namespace S7Comm
open Go

/-! ### The next address -/

theorem length_incFromLast (b : Bytes) : (incFromLast b).length = b.length := by
  induction b with
  | nil => rfl
  | cons x b ih =>
    unfold incFromLast
    split <;> simp [ih]

/-- The carry makes the increment exact, modulo the number of addresses. -/
theorem leValue_incFromLast (b : Bytes) : leValue (incFromLast b) = (leValue b + 1) % 256 ^ b.length := by
  induction b with
  | nil => rfl
  | cons x b ih =>
    have hx := x.toNat_lt
    have hb := leValue_lt b
    have hpow : 256 ^ (x :: b).length = 256 * 256 ^ b.length := Nat.pow_succ'
    have hnext : (x + 1).toNat = (x.toNat + 1) % 256 := UInt8.toNat_add x 1
    unfold incFromLast
    split
    · rename_i hpos
      have hpos : 0 < (x + 1).toNat := UInt8.lt_iff_toNat_lt.mp hpos
      rw [leValue_cons, leValue_cons, hpow, hnext, Nat.mod_eq_of_lt (by omega), Nat.mod_eq_of_lt (by omega)]
      omega
    · rename_i hzero
      have hzero : ¬0 < (x + 1).toNat := fun h => hzero (UInt8.lt_iff_toNat_lt.mpr h)
      have hcarry : leValue (x :: b) + 1 = 256 * (leValue b + 1) := by
        rw [leValue_cons]
        omega
      rw [leValue_cons, hpow, hcarry, Nat.mul_mod_mul_left, ih]
      omega

theorem incIP_ipOf (n : Nat) : incIP (ipOf n) = ipOf (n + 1) := by
  refine beValue_inj (by simp [incIP, length_incFromLast]) ?_
  have hvalue : beValue (incIP (ipOf n)) = (beValue (ipOf n) + 1) % 256 ^ (ipOf n).reverse.length := by
    rw [beValue, incIP, List.reverse_reverse, leValue_incFromLast]
    rfl
  rw [hvalue, beValue_ipOf, beValue_ipOf, List.length_reverse, length_ipOf]
  omega

/-! ### Hosts -/

def addressText (n : Nat) : String := ipString (ipOf n)

/-- The numbers of the hosts in the network of an address: all of its 2^h addresses, without the first and the last one
    if `h` is at least 2. -/
def hostNumbers (base h : Nat) : List Nat :=
  let all := List.range' (base / 2 ^ h * 2 ^ h) (2 ^ h)
  if h ≤ 1 then all else all.tail.dropLast

/-- A network has its ends as hosts, or two addresses more than hosts. -/
theorem hostNumbers_cases (base h : Nat) :
    (2 ^ h ≤ 2 ∧ hostNumbers base h = List.range' (base / 2 ^ h * 2 ^ h) (2 ^ h)) ∨
      ∃ inner, 0 < inner ∧ 2 ^ h = inner + 2 ∧ hostNumbers base h = List.range' (base / 2 ^ h * 2 ^ h + 1) inner := by
  unfold hostNumbers
  split
  · rename_i hle
    exact .inl ⟨by interval_cases h <;> decide, rfl⟩
  · rename_i hgt
    have hpow : 2 ^ 2 ≤ 2 ^ h := Nat.pow_le_pow_right (by decide) (by omega)
    obtain ⟨inner, hinner⟩ : ∃ inner, 2 ^ h = inner + 2 := ⟨2 ^ h - 2, by omega⟩
    refine .inr ⟨inner, by omega, hinner, ?_⟩
    simp only [hinner, List.range'_succ, List.tail_cons]
    rw [← List.range'_succ, List.range'_concat, List.dropLast_concat]

/-- A network ends inside the address space. -/
theorem network_top {base h : Nat} (hh : h ≤ 32) (hbase : base < 2 ^ 32) : (base / 2 ^ h + 1) * 2 ^ h ≤ 2 ^ 32 := by
  have hpow : 2 ^ h * 2 ^ (32 - h) = 2 ^ 32 := by rw [← Nat.pow_add, Nat.add_sub_cancel' hh]
  have hnumber : base / 2 ^ h < 2 ^ (32 - h) := Nat.div_lt_of_lt_mul (by rwa [hpow])
  calc (base / 2 ^ h + 1) * 2 ^ h ≤ 2 ^ (32 - h) * 2 ^ h := Nat.mul_le_mul_right _ hnumber
    _ = 2 ^ 32 := by rw [Nat.mul_comm, hpow]

/-- The hosts in the network of an address with a prefix of this length. -/
def hostIPs (base : Bytes) (ones : Nat) : List String := (hostNumbers (beValue base) (32 - ones)).map addressText

/-- Calls the callback for one address after the other, up to the first false. -/
def sendAll {σ : Type} (ctxErr : σ → Option GoError × σ) (send : String → σ → Bool × σ) :
    List String → Eff σ GoError Unit
  | [] => pure ()
  | ip :: rest => fun st =>
    match send ip st with
    | (false, st') => worldErr ctxErr st'
    | (true, st') => sendAll ctxErr send rest st'

section Stream
variable {σ : Type} {ctxErr : σ → Option GoError × σ} {send : String → σ → Bool × σ} {total left idx : Nat}
  {skipEnds : Bool}

theorem sendAll_continue {ip : String} {rest : List String} {st st' : σ} (h : send ip st = (true, st')) :
    sendAll ctxErr send (ip :: rest) st = sendAll ctxErr send rest st' := by
  simp only [sendAll, h]

theorem sendAll_stop {ip : String} {rest : List String} {st st' : σ} (h : send ip st = (false, st')) :
    sendAll ctxErr send (ip :: rest) st = worldErr ctxErr st' := by
  simp only [sendAll, h]

theorem streamFrom_skip (h : skipEnds ∧ (idx = 0 ∨ idx = total - 1)) (ip : Bytes) :
    streamFrom ctxErr send total skipEnds (left + 1) idx ip =
      streamFrom ctxErr send total skipEnds left (idx + 1) (if idx = 0 then incIP ip else ip) := if_pos h

theorem streamFrom_send (h : ¬(skipEnds ∧ (idx = 0 ∨ idx = total - 1))) {n : Nat} {rest : List String}
    (hrest : streamFrom ctxErr send total skipEnds left (idx + 1) (ipOf (n + 1)) = sendAll ctxErr send rest) :
    streamFrom ctxErr send total skipEnds (left + 1) idx (ipOf n) = sendAll ctxErr send (addressText n :: rest) := by
  rw [← incIP_ipOf] at hrest
  rw [sendAll, ← hrest]
  exact if_neg h

/-- Without the special cases, the stream sends every address. -/
theorem streamFrom_all (n : Nat) :
    streamFrom ctxErr send total false left idx (ipOf n) =
      sendAll ctxErr send ((List.range' n left).map addressText) := by
  induction left generalizing idx n with
  | zero => rfl
  | succ left ih =>
    rw [List.range'_succ, List.map_cons]
    exact streamFrom_send (by simp) (ih (n + 1))

/-- After the first round, it sends all but the last address. -/
theorem streamFrom_inner (n : Nat) (hidx : 0 < idx) (htotal : idx + left + 1 = total) :
    streamFrom ctxErr send total true (left + 1) idx (ipOf n) =
      sendAll ctxErr send ((List.range' n left).map addressText) := by
  induction left generalizing idx n with
  | zero =>
    rw [streamFrom_skip ⟨rfl, .inr (by omega)⟩]
    rfl
  | succ left ih =>
    rw [List.range'_succ, List.map_cons]
    exact streamFrom_send (by omega) (ih (n + 1) (by omega) (by omega))

/-- The whole loop, from the first address of the network on. -/
theorem streamFrom_hosts (base h : Nat) :
    streamFrom ctxErr send (2 ^ h) (2 ^ h > 2) (2 ^ h) 0 (ipOf (base / 2 ^ h * 2 ^ h)) =
      sendAll ctxErr send ((hostNumbers base h).map addressText) := by
  rcases hostNumbers_cases base h with ⟨hsmall, hall⟩ | ⟨inner, hlarge, hpow, hinner⟩
  · rw [hall, decide_eq_false (by omega), streamFrom_all]
  · rw [hinner, decide_eq_true (by omega), hpow, streamFrom_skip ⟨rfl, .inl rfl⟩, if_pos rfl, incIP_ipOf,
      streamFrom_inner _ (by omega) (by omega)]

end Stream

section Network
variable {parseCIDR : String → Except String IPNet} {cidr : String} {base : Bytes} {ones : Nat}

theorem ipMask_network (hbase : base.length = 4) (hones : ones ≤ 32) :
    ipMask (ipMask base (cidrMask ones)) (cidrMask ones) =
      ipOf (beValue base / 2 ^ (32 - ones) * 2 ^ (32 - ones)) := by
  have hnet : (ipMask base (cidrMask ones)).length = 4 := length_ipMask hbase
  rw [← ipOf_beValue (length_ipMask hnet), beValue_ipMask hones hnet, beValue_ipMask hones hbase,
    Nat.mul_div_cancel _ (Nat.two_pow_pos _)]

/-- The stream calls the callback for the hosts in order, up to the first false. -/
theorem streamCIDR_eq {σ : Type} (ctxErr : σ → Option GoError × σ) (send : String → σ → Bool × σ)
    (hbase : base.length = 4) (hmin : 12 ≤ ones) (hones : ones ≤ 32)
    (hparse : parseCIDR cidr = .ok ⟨ipMask base (cidrMask ones), cidrMask ones⟩) :
    streamCIDR ctxErr send parseCIDR cidr = sendAll ctxErr send (hostIPs base ones) := by
  have hnet : (ipMask base (cidrMask ones)).length = 4 := length_ipMask hbase
  have hbits : ¬32 - ones > maxDiscoveryHostBits := by
    rw [maxDiscoveryHostBits]
    omega
  unfold streamCIDR
  rw [hparse]
  simp only [to4_of_length hnet, (cidrMask_spec hones).2, hbits, ipMask_network hbase hones, Nat.one_shiftLeft,
    reduceCtorEq, ne_eq, not_true_eq_false, if_false]
  exact streamFrom_hosts _ _

/-- The address after the last one of a network is outside of it, also where the increment wraps to 0. -/
theorem number_after {number h : Nat} (hh : h < 32) (htop : (number + 1) * 2 ^ h ≤ 2 ^ 32) :
    (number + 1) * 2 ^ h % 2 ^ 32 / 2 ^ h ≠ number := by
  by_cases hlast : (number + 1) * 2 ^ h = 2 ^ 32
  · rw [hlast, Nat.mod_self, Nat.zero_div]
    rintro rfl
    have hlt : 2 ^ h < 2 ^ 32 := Nat.pow_lt_pow_right (by decide) hh
    omega
  · rw [Nat.mod_eq_of_lt (by omega), Nat.mul_div_cancel _ (Nat.two_pow_pos h)]
    exact Nat.succ_ne_self number

/-- The list goes on to the end of the network. -/
theorem expandFrom_eq (number h : Nat) {ipnet : IPNet} {n left fuel : Nat} (hh : h < 32)
    (htop : (number + 1) * 2 ^ h ≤ 2 ^ 32)
    (hnet : ∀ ip : Bytes, ip.length = 4 → (ipnet.contains ip = true ↔ number = beValue ip / 2 ^ h))
    (hstart : number * 2 ^ h ≤ n) (hend : n + left = (number + 1) * 2 ^ h) (hfuel : left < fuel) :
    expandFrom ipnet fuel (ipOf n) = some ((List.range' n left).map addressText) := by
  induction left generalizing n fuel with
  | zero =>
    obtain ⟨fuel, rfl⟩ : ∃ f, fuel = f + 1 := ⟨fuel - 1, by omega⟩
    obtain rfl : n = (number + 1) * 2 ^ h := hend
    have hout : ¬ipnet.contains (ipOf ((number + 1) * 2 ^ h)) = true := by
      rw [hnet _ (length_ipOf _), beValue_ipOf]
      exact (number_after hh htop).symm
    rw [expandFrom, if_neg hout]
    rfl
  | succ left ih =>
    obtain ⟨fuel, rfl⟩ : ∃ f, fuel = f + 1 := ⟨fuel - 1, by omega⟩
    have hin : ipnet.contains (ipOf n) = true := by
      rw [hnet _ (length_ipOf n), beValue_ipOf, Nat.mod_eq_of_lt (by omega)]
      exact (Nat.div_eq_of_lt_le hstart (by omega)).symm
    rw [expandFrom, if_pos hin, incIP_ipOf, ih (by omega) (by omega) (by omega), List.range'_succ]
    rfl

theorem expandCIDR_eq {fuel : Nat} (hbase : base.length = 4) (hmin : 12 ≤ ones) (hones : ones ≤ 32)
    (hparse : parseCIDR cidr = .ok ⟨ipMask base (cidrMask ones), cidrMask ones⟩) (hfuel : 2 ^ (32 - ones) < fuel) :
    expandCIDR parseCIDR fuel cidr = some (.ok (hostIPs base ones)) := by
  have hlen : (ipMask base (cidrMask ones)).length = 4 := length_ipMask hbase
  have hall : expandFrom ⟨ipMask base (cidrMask ones), cidrMask ones⟩ fuel
        (ipOf (beValue base / 2 ^ (32 - ones) * 2 ^ (32 - ones))) =
      some ((List.range' (beValue base / 2 ^ (32 - ones) * 2 ^ (32 - ones)) (2 ^ (32 - ones))).map addressText) := by
    refine expandFrom_eq (beValue base / 2 ^ (32 - ones)) (32 - ones) (by omega) ?_ (fun ip hip => ?_)
      (Nat.le_refl _) (Nat.succ_mul _ _).symm hfuel
    · exact network_top (by omega) (beValue_lt hbase)
    · rw [contains_iff hones hlen hip, beValue_ipMask hones hbase, Nat.mul_div_cancel _ (Nat.two_pow_pos _)]
  unfold expandCIDR
  rw [hparse]
  simp only [to4_of_length hlen, ipMask_network hbase hones, hall, Option.map_some, reduceCtorEq, if_false,
    List.length_map, List.length_range', hostIPs]
  rcases hostNumbers_cases (beValue base) (32 - ones) with ⟨hsmall, hhosts⟩ | ⟨inner, hinner, hpow, hhosts⟩
  · rw [if_neg (by omega), hhosts]
  · rw [if_pos (by omega), hhosts, hpow, List.range'_concat, Nat.succ_sub_one, ← List.map_take, ← List.map_drop,
      List.take_left' List.length_range', List.range'_succ, List.drop_one, List.tail_cons]

end Network

/-! ### The enumeration -/

/-- A callback that notes the addresses, and stops the stream with the `k`-th one. -/
def noteUpTo (k : Nat) (ip : String) (sent : List String) : Bool × List String := (sent.length + 1 != k, sent ++ [ip])

/-- The hosts are enumerated exactly. -/
structure EnumeratesHosts (parseCIDR : String → Except String IPNet) (cidr : String) (base : Bytes) (ones : Nat) :
    Prop where
  ascending : (hostNumbers (beValue base) (32 - ones)).Pairwise (· < ·)
  once : (hostIPs base ones).Nodup
  calls : ∀ {σ : Type} (ctxErr : σ → Option GoError × σ) (send : String → σ → Bool × σ),
    streamCIDR ctxErr send parseCIDR cidr = sendAll ctxErr send (hostIPs base ones)
  streamed : ∀ ctxErr, streamCIDR ctxErr (fun ip sent => (true, sent ++ [ip])) parseCIDR cidr [] =
    (.ok (), hostIPs base ones)
  expanded : ∀ fuel, 2 ^ (32 - ones) < fuel → expandCIDR parseCIDR fuel cidr = some (.ok (hostIPs base ones))
  stopped : ∀ k err, 0 < k → k ≤ (hostIPs base ones).length →
    (streamCIDR (fun sent => (err, sent)) (noteUpTo k) parseCIDR cidr []).2 = (hostIPs base ones).take k

theorem sendAll_note (ctxErr : List String → Option GoError × List String) (ips sent : List String) :
    sendAll ctxErr (fun ip sent => (true, sent ++ [ip])) ips sent = (.ok (), sent ++ ips) := by
  induction ips generalizing sent with
  | nil => rw [List.append_nil]; rfl
  | cons ip ips ih => rw [sendAll_continue rfl, ih, List.append_assoc, List.singleton_append]

theorem sendAll_noteUpTo {k : Nat} {err : Option GoError} {ips sent : List String} (hk : sent.length < k)
    (hlen : k ≤ sent.length + ips.length) :
    (sendAll (fun sent => (err, sent)) (noteUpTo k) ips sent).2 = sent ++ ips.take (k - sent.length) := by
  induction ips generalizing sent with
  | nil =>
    rw [List.length_nil] at hlen
    omega
  | cons ip ips ih =>
    rw [List.length_cons] at hlen
    by_cases hlast : sent.length + 1 = k
    · have hstop : noteUpTo k ip sent = (false, sent ++ [ip]) := by simp [noteUpTo, hlast]
      have hone : k - sent.length = 1 := by omega
      rw [sendAll_stop hstop, hone]
      cases err <;> rfl
    · have hmore : noteUpTo k ip sent = (true, sent ++ [ip]) := by simp [noteUpTo, hlast]
      have hlen' : (sent ++ [ip]).length = sent.length + 1 := by simp
      have hleft : k - sent.length = k - (sent ++ [ip]).length + 1 := by omega
      rw [sendAll_continue hmore, ih (by omega) (by omega), hleft, List.take_succ_cons, List.append_assoc,
        List.singleton_append]

/-- Whatever the callback does, the stream goes through one list of addresses. -/
theorem streamFrom_sendAll (total : Nat) (skipEnds : Bool) (left idx : Nat) (ip : Bytes) :
    ∃ ips, ∀ {σ : Type} (ctxErr : σ → Option GoError × σ) (send : String → σ → Bool × σ),
      streamFrom ctxErr send total skipEnds left idx ip = sendAll ctxErr send ips := by
  induction left generalizing idx ip with
  | zero => exact ⟨[], fun _ _ => rfl⟩
  | succ left ih =>
    by_cases hskip : skipEnds ∧ (idx = 0 ∨ idx = total - 1)
    · obtain ⟨ips, hips⟩ := ih (idx + 1) (if idx = 0 then incIP ip else ip)
      exact ⟨ips, fun ctxErr send => (streamFrom_skip hskip ip).trans (hips ctxErr send)⟩
    · obtain ⟨ips, hips⟩ := ih (idx + 1) (incIP ip)
      refine ⟨ipString ip :: ips, fun ctxErr send => ?_⟩
      rw [sendAll, ← hips]
      exact if_neg hskip

/-- A network is refused, or the stream goes through its addresses. -/
theorem streamCIDR_cases (parseCIDR : String → Except String IPNet) (cidr : String) :
    (∃ err, ∀ {σ : Type} (ctxErr : σ → Option GoError × σ) (send : String → σ → Bool × σ),
        streamCIDR ctxErr send parseCIDR cidr = Eff.fail err) ∨
      ∃ ips, ∀ {σ : Type} (ctxErr : σ → Option GoError × σ) (send : String → σ → Bool × σ),
        streamCIDR ctxErr send parseCIDR cidr = sendAll ctxErr send ips := by
  unfold streamCIDR
  cases parseCIDR cidr with
  | error err => exact .inl ⟨_, fun _ _ => rfl⟩
  | ok ipnet =>
    by_cases hto4 : to4 ipnet.ip = none
    · exact .inl ⟨_, fun _ _ => if_pos hto4⟩
    · by_cases hbits : (maskSize ipnet.mask).2 ≠ 32
      · exact .inl ⟨_, fun _ _ => (if_neg hto4).trans (if_pos hbits)⟩
      · by_cases hlarge : (maskSize ipnet.mask).2 - (maskSize ipnet.mask).1 > maxDiscoveryHostBits
        · exact .inl ⟨_, fun _ _ => ((if_neg hto4).trans (if_neg hbits)).trans (if_pos hlarge)⟩
        · obtain ⟨ips, hips⟩ := streamFrom_sendAll (1 <<< ((maskSize ipnet.mask).2 - (maskSize ipnet.mask).1)) _ _ 0 _
          exact .inr ⟨ips, fun ctxErr send =>
            (((if_neg hto4).trans (if_neg hbits)).trans (if_neg hlarge)).trans (hips ctxErr send)⟩

/-- Both passes over a network that the stream accepts go through the same addresses. -/
theorem streamCIDR_sendAll {parseCIDR : String → Except String IPNet} {cidr : String} {ips : List String}
    {ctxErr : List String → Option GoError × List String}
    (h : streamCIDR ctxErr (fun ip sent => (true, sent ++ [ip])) parseCIDR cidr [] = (.ok (), ips)) {σ : Type}
    (ctxErr' : σ → Option GoError × σ) (send : String → σ → Bool × σ) :
    streamCIDR ctxErr' send parseCIDR cidr = sendAll ctxErr' send ips := by
  rcases streamCIDR_cases parseCIDR cidr with ⟨err, hfail⟩ | ⟨ips', hips⟩
  · rw [hfail] at h
    cases h
  · rw [hips, sendAll_note, List.nil_append] at h
    cases h
    exact hips ctxErr' send

/-- The hosts are consecutive numbers inside the network. -/
theorem hostNumbers_range (base h : Nat) :
    ∃ first count, hostNumbers base h = List.range' first count ∧ first + count ≤ (base / 2 ^ h + 1) * 2 ^ h := by
  rw [Nat.succ_mul]
  rcases hostNumbers_cases base h with ⟨-, hhosts⟩ | ⟨inner, -, hpow, hhosts⟩
  · exact ⟨_, _, hhosts, Nat.le_refl _⟩
  · exact ⟨_, inner, hhosts, by omega⟩

theorem hostNumbers_ascending (base h : Nat) : (hostNumbers base h).Pairwise (· < ·) := by
  obtain ⟨first, count, hhosts, -⟩ := hostNumbers_range base h
  rw [hhosts]
  exact List.pairwise_lt_range'

theorem hostNumbers_lt {base h n : Nat} (hh : h ≤ 32) (hbase : base < 2 ^ 32) (hn : n ∈ hostNumbers base h) :
    n < 2 ^ 32 := by
  have htop := network_top hh hbase
  obtain ⟨first, count, hhosts, hend⟩ := hostNumbers_range base h
  rw [hhosts, List.mem_range'_1] at hn
  omega

theorem hostIPs_nodup {base : Bytes} {ones : Nat} (hbase : base.length = 4) : (hostIPs base ones).Nodup := by
  refine List.Nodup.map_on (fun m hm n hn htext => ?_) ((hostNumbers_ascending _ _).imp Nat.ne_of_lt)
  have hip := congrArg beValue (ipString_inj (length_ipOf m) (length_ipOf n) htext)
  rwa [beValue_ipOf, beValue_ipOf, Nat.mod_eq_of_lt (hostNumbers_lt (by omega) (beValue_lt hbase) hm),
    Nat.mod_eq_of_lt (hostNumbers_lt (by omega) (beValue_lt hbase) hn)] at hip

/-- For every IPv4 address and every prefix from 12 to 32 bits, the stream and the list go through exactly the hosts of
    the network. -/
theorem cidr_enumeration (parseCIDR : String → Except String IPNet) (cidr : String) (base : Bytes) (ones : Nat)
    (hbase : base.length = 4) (hmin : 12 ≤ ones) (hmax : ones ≤ 32)
    (hparse : parseCIDR cidr = .ok ⟨ipMask base (cidrMask ones), cidrMask ones⟩) :
    EnumeratesHosts parseCIDR cidr base ones where
  ascending := hostNumbers_ascending _ _
  once := hostIPs_nodup hbase
  calls ctxErr send := streamCIDR_eq ctxErr send hbase hmin hmax hparse
  streamed ctxErr := by rw [streamCIDR_eq _ _ hbase hmin hmax hparse, sendAll_note, List.nil_append]
  expanded fuel hfuel := expandCIDR_eq hbase hmin hmax hparse hfuel
  stopped k err hk hlen := by
    rw [streamCIDR_eq _ _ hbase hmin hmax hparse, sendAll_noteUpTo (by simpa using hk) (by simpa using hlen)]
    rfl

theorem cidr_enumeration_carry :
    expandCIDR (fun _ => .ok ⟨[10, 0, 255, 252], cidrMask 30⟩) 5 "10.0.255.252/30" =
      some (.ok ["10.0.255.253", "10.0.255.254"]) :=
  (cidr_enumeration (fun _ => .ok ⟨[10, 0, 255, 252], cidrMask 30⟩) "10.0.255.252/30" [10, 0, 255, 252] 30 rfl
    (by decide) (by decide) rfl).expanded 5 (by decide)

end S7Comm
