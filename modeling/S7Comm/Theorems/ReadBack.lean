import S7Comm.Theorems.Dialogue

/-! What a client has written is what it reads, later in the conversation and over later connections too, as long as
    nothing it does in between touches those bytes. -/

namespace S7Comm
open Go

/-! ### Spans byte by byte -/

section Bytes
variable {mem mem' : Memory} {addr : Address} {start n : Nat} {d : Bytes}

/-- A span that is not empty is its bytes. -/
theorem readSpan_iff_byteAt (hn : 0 < n) :
    mem.readSpan addr start n = some d ↔
      (Area.timerOrCounter addr.area = false ∧ keyOf addr.area addr.dbNumber = .ok addr.key) ∧ d.length = n ∧
        ∀ i < n, mem.byteAt addr.key (start + i) = d[i]? := by
  constructor
  · intro h
    have hkey := readSpan_key h
    obtain ⟨hplain, key, reg, hkey', hreg, hend, rfl⟩ := readSpan_eq_some.mp h
    rw [hkey] at hkey'
    cases hkey'
    refine ⟨⟨hplain, hkey⟩, length_readSpan h, fun i hi => ?_⟩
    unfold Memory.byteAt
    rw [hreg, Option.bind_some, List.getElem?_take_of_lt hi, List.getElem?_drop]
  · rintro ⟨⟨hplain, hkey⟩, rfl, hbytes⟩
    have hlast := hbytes (d.length - 1) (by omega)
    unfold Memory.byteAt at hlast hbytes
    cases hreg : mem.regions addr.key with
    | none =>
      rw [hreg, Option.bind_none, eq_comm, List.getElem?_eq_none_iff] at hlast
      omega
    | some reg =>
      rw [hreg, Option.bind_some, List.getElem?_eq_getElem (show d.length - 1 < d.length by omega)] at hlast
      have hend := (List.getElem?_eq_some_iff.mp hlast).1
      refine readSpan_eq_some.mpr ⟨hplain, addr.key, reg, hkey, hreg, by omega, List.ext_getElem? fun i => ?_⟩
      by_cases hi : i < d.length
      · rw [← hbytes i hi, hreg, Option.bind_some, List.getElem?_take_of_lt hi, List.getElem?_drop]
      · rw [List.getElem?_eq_none (by omega), List.getElem?_eq_none]
        rw [List.length_take]
        omega

theorem readSpan_congr (hn : 0 < n) (h : ∀ i < n, mem'.byteAt addr.key (start + i) = mem.byteAt addr.key (start + i)) :
    mem'.readSpan addr start n = mem.readSpan addr start n := by
  refine Option.ext fun d => ?_
  rw [readSpan_iff_byteAt hn, readSpan_iff_byteAt hn]
  exact and_congr_right fun _ => and_congr_right fun _ => forall₂_congr fun i hi => by rw [h i hi]

/-- A byte is its bits. -/
theorem byteAt_congr {key : AreaKey} {i : Nat} (h : ∀ j, mem'.bitAt key i j = mem.bitAt key i j) :
    mem'.byteAt key i = mem.byteAt key i := by
  unfold Memory.bitAt at h
  cases h₁ : mem'.byteAt key i with
  | none =>
    rw [h₁] at h
    exact (Option.map_eq_none_iff.mp (h 0).symm).symm
  | some b =>
    rw [h₁] at h
    obtain ⟨b', hb', -⟩ := Option.map_eq_some_iff.mp (h 0).symm
    rw [hb'] at h ⊢
    exact congrArg some (UInt8.toNat_inj.mp (Nat.eq_of_testBit_eq fun j => Option.some.inj (h j)))

end Bytes

/-! ### Calls apart from a span -/

/-- The call does not write to the `n` bytes of the address. -/
def ClientCall.Apart (addr : Address) (n : Nat) : ClientCall → Prop
  | writeArea addr' data =>
    addr'.key ≠ addr.key ∨ addr'.start.toNat + data.length ≤ addr.start.toNat ∨
      addr.start.toNat + n ≤ addr'.start.toNat
  | writeBit addr' _ =>
    addr'.byte.key ≠ addr.key ∨ addr'.byteOffset.toNat < addr.start.toNat ∨
      addr.start.toNat + n ≤ addr'.byteOffset.toNat
  | _ => True

section Apart
variable {p : Nat} {mem mem' : Memory} {addr : Address} {n : Nat}

theorem Writes.apart {addr' : Address} {data : Bytes} {r : Res Unit} (h : Writes p mem addr' data r mem') (hn : 0 < n)
    (hapart : (ClientCall.writeArea addr' data).Apart addr n) :
    mem'.readSpan addr addr.start.toNat n = mem.readSpan addr addr.start.toNat n := by
  by_cases hacc : addr'.Accepted data.length
  · obtain ⟨k, hk, rfl, hfits, -⟩ := h.stored hacc
    have hlen : (data.take k).length = k := by
      rw [List.length_take]
      omega
    refine readSpan_congr hn fun i hi => ?_
    rw [byteAt_storeAt, if_neg]
    · rintro ⟨hkey, hle, hlt⟩
      rw [hlen] at hlt
      rcases hapart with hne | hbelow | habove
      · exact hne hkey.symm
      · omega
      · omega
    · intro hpos
      rw [hlen] at hpos ⊢
      obtain ⟨old, hold⟩ := Option.isSome_iff_exists.mp (hfits hpos)
      have hkey := readSpan_key hold
      obtain ⟨-, key, reg, hkey', hreg, hend, -⟩ := readSpan_eq_some.mp hold
      rw [hkey] at hkey'
      cases hkey'
      exact ⟨reg, hreg, hend⟩
  · rw [(h.refused hacc).2]

theorem WritesBit.apart {addr' : BitAddress} {v : Bool} {r : Res Unit} (h : WritesBit mem addr' v r mem') (hn : 0 < n)
    (hapart : (ClientCall.writeBit addr' v).Apart addr n) :
    mem'.readSpan addr addr.start.toNat n = mem.readSpan addr addr.start.toNat n := by
  obtain ⟨-, hsets⟩ | ⟨-, rfl⟩ := h.stored
  · refine readSpan_congr hn fun i hi => byteAt_congr fun j => ?_
    rw [hsets.bits, if_neg]
    rintro ⟨hkey, hbyte, -⟩
    rcases hapart with hne | hbelow | habove
    · exact hne hkey.symm
    · omega
    · omega
  · rfl

/-- A call apart from a span leaves the span as it was. -/
theorem Made.Sound.apart {m : Made} (h : m.Sound p) (hn : 0 < n) (hapart : m.call.Apart addr n) :
    m.after.readSpan addr addr.start.toNat n = m.before.readSpan addr addr.start.toNat n := by
  obtain ⟨call, on, r, before, after⟩ := m
  cases on with
  | false => rw [(h.2 rfl).1]
  | true =>
    have hmeets := h.1 rfl
    cases call with
    | writeArea addr' data => exact Writes.apart hmeets hn hapart
    | writeBit addr' v => exact WritesBit.apart hmeets hn hapart
    | _ => exact congrArg (Memory.readSpan · addr addr.start.toNat n) hmeets.1

/-- So does every run of such calls, by induction on the calls. -/
theorem Chained.apart {made : List Made} (h : Chained mem made mem') (hsound : ∀ m ∈ made, m.Sound p) (hn : 0 < n)
    (hapart : ∀ m ∈ made, m.call.Apart addr n) :
    mem'.readSpan addr addr.start.toNat n = mem.readSpan addr addr.start.toNat n := by
  induction made generalizing mem with
  | nil => rw [show mem' = mem from h]
  | cons m made ih =>
    obtain ⟨rfl, hrest⟩ := h
    obtain ⟨hm, hsound⟩ := List.forall_mem_cons.mp hsound
    obtain ⟨hfirst, hapart⟩ := List.forall_mem_cons.mp hapart
    rw [ih hrest hsound hapart, hm.apart hn hfirst]

end Apart

/-! ### Reading back -/

section ReadBack
variable {cfg : ServerConfig} {opts : Options} {p : Nat} {mem mem' : Memory}

theorem mem_callsOf {call : ClientCall} {c on : Bool} {actions : List ClientAction} (h : (call, c) ∈ callsOf on actions) :
    .call call ∈ actions := by
  induction actions generalizing on with
  | nil => cases h
  | cons action actions ih =>
    cases action with
    | connect => exact List.mem_cons_of_mem _ (ih h)
    | close => exact List.mem_cons_of_mem _ (ih h)
    | call call' =>
      rcases List.mem_cons.mp h with heq | h
      · cases heq
        exact List.mem_cons_self
      · exact List.mem_cons_of_mem _ (ih h)

theorem converse_append (actions rest : List ClientAction) (st : ClientSession Unit × Link) :
    converse cfg opts (actions ++ rest) st =
      ((converse cfg opts actions st).1 ++ (converse cfg opts rest (converse cfg opts actions st).2).1,
        (converse cfg opts rest (converse cfg opts actions st).2).2) := by
  induction actions generalizing st with
  | nil => rfl
  | cons action actions ih =>
    cases action with
    | connect => exact ih _
    | close => exact ih _
    | call call =>
      rw [List.cons_append]
      dsimp only [converse]
      rw [ih]
      rfl

theorem connectedAfter_append (on : Bool) (actions rest : List ClientAction) :
    connectedAfter on (actions ++ rest) = connectedAfter (connectedAfter on actions) rest := by
  induction actions generalizing on with
  | nil => rfl
  | cons action actions ih => cases action <;> exact ih _

/-- The span that was written can be read. -/
theorem Address.Accepted.read {addr : Address} {n : Nat} (h : addr.Accepted n) :
    Address.Accepted { addr with size := n } n := by
  refine ⟨?_, h.2⟩
  have hvalid := h.1
  unfold validateAddress at hvalid ⊢
  dsimp only
  split_ifs at hvalid with h₁ h₂ h₃ h₄ h₅
  rw [if_neg h₁, if_neg (by omega), if_neg h₃, if_neg h₄, if_neg h₅]

/-- A write that has returned nil has stored its bytes. -/
theorem Writes.readSpan {addr : Address} {data : Bytes} (h : Writes p mem addr data (.ok ()) mem') (hdata : data ≠ []) :
    addr.Accepted data.length ∧ mem'.readSpan addr addr.start.toNat data.length = some data := by
  have hacc : addr.Accepted data.length := by
    by_contra hacc
    obtain ⟨⟨e, he⟩, -⟩ := h.refused hacc
    cases he
  obtain ⟨n, -, rfl, hfits, hall⟩ := h.stored hacc
  obtain rfl := hall.mp rfl
  rw [List.take_length]
  exact ⟨hacc, readSpan_storeAt (hfits (List.length_pos_iff.mpr hdata))⟩

/-- What a client has written is what it reads. A client makes a conversation, writes some bytes, goes on with actions
    that do not write to these bytes, and reads them over the connection it has then. If the write has returned nil, the
    read returns exactly these bytes. And the write does return nil if the client is connected, the address is accepted,
    the PDU size agreed on is even and the memory takes the bytes. -/
theorem read_your_write (cfg : ServerConfig) (opts : Options) (hopts : opts.Usable) (hp : 30 ≤ agreedPDU cfg opts)
    (earlier later : List ClientAction) (addr : Address) (data : Bytes) (hdata : data ≠ [])
    (hapart : ∀ call, .call call ∈ later → call.Apart addr data.length)
    (hon : connectedAfter false (earlier ++ later) = true) (w : Link) :
    ∃ made₁ made₂ last r r' mem₁ mem₂ mem₃,
      converse cfg opts
          (earlier ++ .call (.writeArea addr data) ::
            (later ++ [.call (.readArea { addr with size := data.length })])) ({}, w) =
        (made₁ ++ ⟨.writeArea addr data, connectedAfter false earlier, r, mem₁, mem₂⟩ ::
          (made₂ ++ [⟨.readArea { addr with size := data.length }, true, r', mem₃, mem₃⟩]), last) ∧
      mem₁ = (converse cfg opts earlier ({}, w)).2.2.session.mem ∧
      (connectedAfter false earlier = true → addr.Accepted data.length → agreedPDU cfg opts % 2 = 0 →
        mem₁.Takes addr (addr.start.toNat + data.length) → r = .ok ()) ∧
      (r = .ok () → ∃ out, r' = .ok out ∧ out.status = .success ∧ out.data = data) := by
  obtain ⟨made₁, st₁, mem₁, hrun₁, hst₁, -, -, -⟩ := converse_between hopts hp earlier (Between.new w)
  obtain ⟨r, mem₂, st₂, hwrite, hst₂, hwrote⟩ := call_between hp (.writeArea addr data) hst₁
  obtain ⟨made₂, st₃, mem₃, hrun₃, hst₃, hcalls, hchain, hsound⟩ := converse_between hopts hp later hst₂
  rw [← connectedAfter_append, hon] at hst₃
  obtain ⟨r', mem₄, st₄, hread, hst₄, hdone⟩ :=
    call_between hp (.readArea { addr with size := data.length }) hst₃
  have hmeets : mem₄ = mem₃ ∧ Reads mem₃ { addr with size := data.length } r' := hdone.1 rfl
  obtain ⟨hsame, hreads⟩ := hmeets
  refine ⟨made₁, made₂, st₄, r, r', mem₁, mem₂, mem₃, ?_, ?_, fun hcon => (hwrote.1 hcon).taken, ?_⟩
  · rw [converse_append, hrun₁]
    dsimp only [converse]
    rw [hwrite, converse_append, hrun₃]
    dsimp only [converse]
    rw [hread, hst₁.isSome_conn, hst₁.mem_eq, hst₂.mem_eq, hst₃.isSome_conn, hst₃.mem_eq, hst₄.mem_eq, hsame]
  · rw [hrun₁]
    exact hst₁.mem_eq.symm
  · rintro rfl
    have hcon : connectedAfter false earlier = true := by
      by_contra hoff
      obtain ⟨-, hidle | ⟨e, he⟩⟩ := hwrote.2 (Bool.eq_false_iff.mpr hoff)
      · exact hdata hidle
      · cases he
    obtain ⟨hacc, hspan⟩ := Writes.readSpan (hwrote.1 hcon) hdata
    have hpos : 0 < data.length := List.length_pos_iff.mpr hdata
    have hkept := hchain.apart hsound hpos fun m hm => hapart m.call <| mem_callsOf (c := m.connected) <|
      hcalls ▸ List.mem_map_of_mem hm
    rw [hspan] at hkept
    exact hreads.found hacc.read (by dsimp only; omega) data hkept

end ReadBack

/-- A client writes two bytes of DB1, closes, connects and reads them, with writes to the byte after them in between. -/
theorem read_your_write_reconnect :
    ∃ made₁ made₂ last r r' mem₁ mem₂ mem₃,
      converse defaultConfig {}
          ([.connect] ++ .call (.writeArea ⟨areaDB, 1, 0, 0⟩ [0x01, 0x02]) ::
            ([.call (.writeArea ⟨areaDB, 1, 2, 0⟩ [0x07]), .close, .connect, .call (.writeBit ⟨areaDB, 1, 2, 4⟩ true)] ++
              [.call (.readArea ⟨areaDB, 1, 0, 2⟩)])) ({}, { session := dbSession }) =
        (made₁ ++ ⟨.writeArea ⟨areaDB, 1, 0, 0⟩ [0x01, 0x02], true, r, mem₁, mem₂⟩ ::
          (made₂ ++ [⟨.readArea ⟨areaDB, 1, 0, 2⟩, true, r', mem₃, mem₃⟩]), last) ∧
      ∃ out, r' = .ok out ∧ out.status = .success ∧ out.data = [0x01, 0x02] := by
  obtain ⟨made₁, made₂, last, r, r', mem₁, mem₂, mem₃, hrun, hmem, htaken, hread⟩ :=
    read_your_write defaultConfig {} ⟨rfl, by decide, by decide⟩ (by decide) [.connect]
      [.call (.writeArea ⟨areaDB, 1, 2, 0⟩ [0x07]), .close, .connect, .call (.writeBit ⟨areaDB, 1, 2, 4⟩ true)]
      ⟨areaDB, 1, 0, 0⟩ [0x01, 0x02] (by decide)
      (by
        intro call hcall
        simp only [List.mem_cons, ClientAction.call.injEq, reduceCtorEq, List.not_mem_nil, or_false, false_or] at hcall
        rcases hcall with rfl | rfl
        · exact .inr (.inr (by decide))
        · exact .inr (.inr (by decide)))
      rfl { session := dbSession }
  have hreg : mem₁.regions { area := areaDB, db := 1 } = some ⟨[0x11, 0x22, 0x33], false⟩ := by
    rw [hmem]
    decide +kernel
  exact ⟨made₁, made₂, last, r, r', mem₁, mem₂, mem₃, hrun,
    hread (htaken rfl ⟨rfl, rfl⟩ (by decide) ⟨rfl, _, _, rfl, hreg, rfl, by decide⟩)⟩

end S7Comm
