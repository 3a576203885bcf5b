import S7Comm.Server.Host
import S7Comm.Theorems.Handle

/-! The memory over whole runs. A step of the server leaves the memory as it was, adds a region, overwrites a span of
    a region (a call of the host) or stores the accepted items of a Write Var job (a request). Every step
    therefore keeps the regions there are, with their sizes and flags, and a request keeps the contents of the
    regions that clients may not write. -/

namespace S7Comm
open Go

/-! ### Steps -/

theorem register_eq (m : Memory) (area : Area) (db : Int) (data : Bytes) (readOnly : Bool) :
    (Memory.register area db data readOnly m).2 =
      match keyOf area db with
      | .ok key =>
        if 0 < data.length ∧ data.length ≤ maxAreaSize ∧ m.regions key = none then m.set key ⟨data, readOnly⟩ else m
      | _ => m := by
  unfold Memory.register
  cases hkey : keyOf area db with
  | fail e => rw [Eff.bind_fail (Eff.lift_apply _ _)]
  | panic => rfl
  | ok key =>
    rw [Eff.bind_ok (Eff.lift_apply _ _)]
    dsimp only
    by_cases hsize : data.length = 0 ∨ data.length > maxAreaSize
    · rw [if_pos hsize, if_neg (by omega)]
      rfl
    · rw [if_neg hsize, Eff.bind_ok (Eff.get_apply m)]
      cases hreg : m.regions key with
      | some reg =>
        rw [if_neg (by simp)]
        rfl
      | none =>
        rw [if_pos ⟨by omega, by omega, rfl⟩]
        rfl

theorem write_host_eq (m : Memory) (area : Area) (db start : Int) (data : Bytes) :
    (Memory.write area db start data m).2 =
      match keyOf area db with
      | .ok key =>
        match m.regions key with
        | some reg =>
          if 0 ≤ start ∧ start + data.length ≤ reg.data.length then
            m.set key { reg with data := overwrite reg.data start.toNat data }
          else m
        | none => m
      | _ => m := by
  unfold Memory.write Memory.span
  rw [Eff.bind_ok (Eff.get_apply m)]
  cases hkey : keyOf area db with
  | fail e => rw [Outcome.fail_bind, Eff.bind_fail (Eff.lift_apply _ _)]
  | panic => rfl
  | ok key =>
    rw [Outcome.ok_bind]
    dsimp only
    cases hreg : m.regions key with
    | none => rw [Eff.bind_fail (Eff.lift_apply _ _)]
    | some reg =>
      dsimp only
      by_cases hspan : start < 0 ∨ (data.length : Int) < 0 ∨ start > reg.data.length ∨
          (data.length : Int) > reg.data.length - start
      · rw [if_pos hspan, Eff.bind_fail (Eff.lift_apply _ _), if_neg (by omega)]
      · rw [if_neg hspan, if_pos (by omega), Outcome.pure_eq, Eff.bind_ok (Eff.lift_apply _ _)]
        dsimp only
        rw [sliceOf_of_le (by omega) (Nat.le_refl _)]
        rfl

/-- A request leaves the memory as it was or stores the accepted items of a Write Var job, and then the answer
    carries their codes. -/
theorem request_mem (cfg : ServerConfig) (req : Bytes) (s : Session) :
    (handle cfg req s).2.mem = s.mem ∨
      ¬Unreadable req ∧ requestRosctr req = rosctrJob ∧ ∃ specs items,
        parseWriteVarRequest (paramSection req) (dataSection req) = .ok (specs, items) ∧
        (handle cfg req s).1 = .ok (some (ackData (requestRef req) 0 0 [funcWriteVar, UInt8.ofNat specs.length]
          (writeCodes s.mem.shape specs items)), true) ∧
        (handle cfg req s).2.mem = storeItems s.mem (acceptedItems s.mem.shape specs items) := by
  rcases handle_spec cfg req s with ⟨-, hdrop⟩ | ⟨hre, out, s', hans, hout⟩
  · rw [hdrop]
    exact .inl rfl
  · rw [hans]
    cases hout with
    | refused => exact .inl rfl
    | userdata => exact .inl rfl
    | setup => exact .inl rfl
    | read => exact .inl rfl
    | write hr hparse => exact .inr ⟨hre, hr, _, _, hparse, rfl, rfl⟩

theorem exists_index_of_accepted {shape : Shape} {specs : List VarSpec} {items : List WriteVarData} {spec : VarSpec}
    {item : WriteVarData} (h : (spec, item) ∈ acceptedItems shape specs items) :
    ∃ j : Nat, specs[j]? = some spec ∧ (writeCodes shape specs items)[j]? = some retCodeSuccess := by
  obtain ⟨hmem, hcode⟩ := List.mem_filter.mp h
  obtain ⟨j, hj⟩ := List.mem_iff_getElem?.mp hmem
  obtain ⟨hspec, hitem⟩ := List.getElem?_zip_eq_some.mp hj
  refine ⟨j, hspec, ?_⟩
  simp only [writeCodes, List.getElem?_zipWith, hspec, hitem]
  simpa using hcode

theorem request_shape (cfg : ServerConfig) (req : Bytes) (s : Session) :
    (handle cfg req s).2.mem.shape = s.mem.shape := by
  rcases request_mem cfg req s with h | ⟨-, -, specs, items, -, -, h⟩
  · rw [h]
  · rw [h, shape_storeItems]

/-! ### Sizes and flags -/

theorem shape_set_new {m : Memory} {key : AreaKey} {reg : Region} :
    (m.set key reg).shape = Function.update m.shape key (some (reg.data.length, reg.readOnly)) := by
  funext k
  by_cases hk : k = key
  · subst hk
    simp [Memory.shape]
  · simp [Memory.shape, Memory.set_regions_of_ne hk, hk]

/-- What a step does to the sizes and flags of the regions: nothing, or it adds one region. -/
theorem step_shape (cfg : ServerConfig) (srv : Server) (e : Event) :
    (srv.step cfg e).mem.shape = srv.mem.shape ∨
      ∃ key n readOnly, srv.mem.shape key = none ∧ 0 < n ∧ n ≤ maxAreaSize ∧
        (srv.step cfg e).mem.shape = Function.update srv.mem.shape key (some (n, readOnly)) := by
  cases e with
  | request id req => exact .inl (request_shape cfg req (srv.session id))
  | read area db start size => exact .inl rfl
  | register area db data readOnly =>
    simp only [Server.step, register_eq]
    split
    · split
      · rename_i key _ hnew
        exact .inr ⟨key, data.length, readOnly, by simp [Memory.shape, hnew.2.2], hnew.1, hnew.2.1, shape_set_new⟩
      · exact .inl rfl
    · exact .inl rfl
  | write area db start data =>
    simp only [Server.step, write_host_eq]
    split
    · split
      · split
        · rename_i hreg _
          exact .inl (shape_set hreg (length_overwrite _ _ _))
        · exact .inl rfl
      · exact .inl rfl
    · exact .inl rfl

/-- Every region of `a` is in `b`, with its size and its flag. -/
def Kept (a b : Shape) : Prop := ∀ key v, a key = some v → b key = some v

theorem step_kept (cfg : ServerConfig) (srv : Server) (e : Event) :
    Kept srv.mem.shape (srv.step cfg e).mem.shape := by
  intro key v h
  rcases step_shape cfg srv e with hsame | ⟨k, n, readOnly, hnone, -, -, hnew⟩
  · rwa [hsame]
  · have hne : key ≠ k := by
      rintro rfl
      rw [hnone] at h
      cases h
    rwa [hnew, Function.update_of_ne hne]

theorem run_kept (cfg : ServerConfig) (srv : Server) (events : List Event) :
    Kept srv.mem.shape (srv.run cfg events).mem.shape :=
  List.foldlRecOn events _ (motive := fun t : Server => Kept srv.mem.shape t.mem.shape) (fun _ _ h => h)
    fun t ht e _ key v h => step_kept cfg t e key v (ht key v h)

/-- Every region has a size the server registers. -/
def Sized (a : Shape) : Prop := ∀ key n readOnly, a key = some (n, readOnly) → 0 < n ∧ n ≤ maxAreaSize

theorem step_sized {cfg : ServerConfig} {srv : Server} (h : Sized srv.mem.shape) (e : Event) :
    Sized (srv.step cfg e).mem.shape := by
  intro key n readOnly hk
  rcases step_shape cfg srv e with hsame | ⟨k, n', readOnly', -, hpos, hle, hnew⟩
  · rw [hsame] at hk
    exact h key n readOnly hk
  · rw [hnew] at hk
    by_cases hkey : key = k
    · subst hkey
      rw [Function.update_self] at hk
      cases hk
      exact ⟨hpos, hle⟩
    · rw [Function.update_of_ne hkey] at hk
      exact h key n readOnly hk

theorem run_sized (cfg : ServerConfig) (events : List Event) : Sized ((Server.new cfg).run cfg events).mem.shape :=
  List.foldlRecOn events _ (motive := fun t : Server => Sized t.mem.shape) (fun _ _ _ h => by cases h)
    fun _ ht e _ => step_sized ht e

/-! ### What requests store -/

theorem storeItem_regions_of_ne {mem : Memory} {spec : VarSpec} {payload : Bytes} {key : AreaKey}
    (h : key ≠ spec.key) : (storeItem mem spec payload).regions key = mem.regions key := by
  unfold storeItem
  split
  · rfl
  · exact Memory.set_regions_of_ne h

theorem storeItem_regions_self {mem : Memory} {spec : VarSpec} {payload : Bytes} {reg : Region}
    (h : mem.regions spec.key = some reg) :
    (storeItem mem spec payload).regions spec.key = some { reg with data := storeBytes spec payload reg.data } := by
  simp [storeItem, h]

/-- Clients may not write the region. -/
def Protected (key : AreaKey) (reg : Region) : Prop := reg.readOnly = true ∨ key.area.timerOrCounter = true

/-- Storing accepted items leaves every protected region as it is. -/
theorem storeItems_protected {mem : Memory} {pairs : List (VarSpec × WriteVarData)}
    (h : ∀ p ∈ pairs, writeCode mem.shape p.1 p.2.data.length = retCodeSuccess) {key : AreaKey} {reg : Region}
    (hreg : mem.regions key = some reg) (hprot : Protected key reg) : (storeItems mem pairs).regions key = some reg := by
  induction pairs generalizing mem with
  | nil => exact hreg
  | cons p pairs ih =>
    obtain ⟨hp, hps⟩ := List.forall_mem_cons.mp h
    obtain ⟨reg', hacc⟩ := accepted_of_writeCode hp
    have hne : key ≠ p.1.key := by
      rintro rfl
      rw [hacc.reg_eq] at hreg
      cases hreg
      rcases hprot with hro | htc
      · simp [hacc.writable] at hro
      · have hplain := hacc.plain
        simp [VarSpec.key, hplain] at htc
    refine ih ?_ ?_
    · rwa [shape_storeItem]
    · rw [storeItem_regions_of_ne hne]
      exact hreg

theorem getElem?_storeBytes {spec : VarSpec} {payload old : Bytes} {i : Nat}
    (hfits : spec.byteStart + payload.length ≤ old.length) (hbit : spec.isBit → payload.length = 1)
    (h : (storeBytes spec payload old)[i]? ≠ old[i]?) :
    spec.byteStart ≤ i ∧ i < spec.byteStart + payload.length := by
  unfold storeBytes at h
  split at h
  · rename_i hb
    rw [List.getElem?_modify] at h
    split at h
    · have := hbit hb
      omega
    · simp at h
  · rw [getElem?_overwrite hfits] at h
    split at h
    · assumption
    · exact absurd rfl h

/-- A byte that storing accepted items changes lies in the span of one of them. -/
theorem storeItems_changed {mem : Memory} {pairs : List (VarSpec × WriteVarData)}
    (h : ∀ p ∈ pairs, writeCode mem.shape p.1 p.2.data.length = retCodeSuccess) {key : AreaKey} {reg reg' : Region}
    (hreg : mem.regions key = some reg) (hreg' : (storeItems mem pairs).regions key = some reg') {i : Nat}
    (hi : reg'.data[i]? ≠ reg.data[i]?) :
    ∃ p ∈ pairs, p.1.syntaxID = syntaxIDS7Any ∧ p.1.key = key ∧ p.1.byteStart ≤ i ∧
      i < p.1.byteStart + p.1.byteCount := by
  induction pairs generalizing mem reg with
  | nil =>
    rw [storeItems, List.foldl_nil, hreg] at hreg'
    cases hreg'
    exact absurd rfl hi
  | cons p pairs ih =>
    obtain ⟨hp, hps⟩ := List.forall_mem_cons.mp h
    obtain ⟨_, hacc⟩ := accepted_of_writeCode hp
    have hrest : ∀ q ∈ pairs, writeCode (storeItem mem p.1 p.2.data).shape q.1 q.2.data.length = retCodeSuccess := by
      rwa [shape_storeItem]
    by_cases hkey : key = p.1.key
    · subst hkey
      rw [hacc.reg_eq] at hreg
      cases hreg
      -- Either this item changed the byte, or the later ones did.
      by_cases hthis : (storeBytes p.1 p.2.data reg.data)[i]? = reg.data[i]?
      · obtain ⟨q, hq, hspan⟩ := ih hrest (storeItem_regions_self hacc.reg_eq) hreg' (by rwa [hthis])
        exact ⟨q, List.mem_cons_of_mem _ hq, hspan⟩
      · have hspan := getElem?_storeBytes hacc.fits hacc.bit_size hthis
        exact ⟨p, List.mem_cons_self, hacc.syntax_eq, rfl, hspan.1, hacc.size_eq ▸ hspan.2⟩
    · have hkeep : (storeItem mem p.1 p.2.data).regions key = some reg := by
        rw [storeItem_regions_of_ne hkey]
        exact hreg
      obtain ⟨q, hq, hspan⟩ := ih hrest hkeep hreg' hi
      exact ⟨q, List.mem_cons_of_mem _ hq, hspan⟩

/-- A byte that a request changes lies in an item of a Write Var job, and the answer reports that item as stored. -/
theorem request_changed {cfg : ServerConfig} {req : Bytes} {s : Session} {key : AreaKey} {reg reg' : Region}
    (hreg : s.mem.regions key = some reg) (hreg' : (handle cfg req s).2.mem.regions key = some reg') {i : Nat}
    (hi : reg'.data[i]? ≠ reg.data[i]?) :
    ∃ specs items out codes, IsJob req funcWriteVar ∧
      parseWriteVarRequest (paramSection req) (dataSection req) = .ok (specs, items) ∧
      (handle cfg req s).1 = .ok (some out, true) ∧
      responseSections out (requestRef req) = .ok ([funcWriteVar, UInt8.ofNat specs.length], codes) ∧
      parseWriteVarResponseCodes [funcWriteVar, UInt8.ofNat specs.length] codes = .ok codes ∧
      ∃ (j : Nat) (spec : VarSpec), specs[j]? = some spec ∧ codes[j]? = some retCodeSuccess ∧
        spec.syntaxID = syntaxIDS7Any ∧ spec.key = key ∧ spec.byteStart ≤ i ∧
        i < spec.byteStart + spec.byteCount := by
  rcases request_mem cfg req s with hsame | ⟨hre, hr, specs, items, hparse, hans, hstore⟩
  · rw [hsame, hreg] at hreg'
    cases hreg'
    exact absurd rfl hi
  · obtain ⟨hlen, hpos, hle⟩ := parseWriteVarRequest_length hparse
    have hcodes : (writeCodes s.mem.shape specs items).length = specs.length := length_writeCodes hlen
    rw [hstore] at hreg'
    obtain ⟨⟨spec, item⟩, hmem, hsyn, hkey, hlow, hhigh⟩ :=
      storeItems_changed (fun p hp => mem_acceptedItems hp) hreg hreg' hi
    obtain ⟨j, hspec, hcode⟩ := exists_index_of_accepted hmem
    refine ⟨specs, items, _, _, ⟨hre, hr, parseWriteVarRequest_function hparse⟩, hparse, hans,
      responseSections_ackData ?_, ?_, j, spec, hspec, hcode, hsyn, hkey, hlow, hhigh⟩
    · simp only [List.length_cons, List.length_nil]
      omega
    · rw [← hcodes]
      exact parseWriteVarResponseCodes_eq (by omega) (by omega)

/-! ### The run without the clients -/

/-- `host` has the regions of `mem`, and the same contents in those that clients may not write. -/
structure Shadow (mem host : Memory) : Prop where
  shape_eq : host.shape = mem.shape
  contents : ∀ key reg, mem.regions key = some reg → Protected key reg → host.regions key = some reg

theorem regions_of_shape_eq {a b : Memory} (h : b.shape = a.shape) {key : AreaKey} {reg : Region}
    (hreg : a.regions key = some reg) :
    ∃ reg', b.regions key = some reg' ∧ reg'.data.length = reg.data.length ∧ reg'.readOnly = reg.readOnly := by
  have hkey := congrFun h key
  simp only [Memory.shape, hreg, Option.map_some, Option.map_eq_some_iff, Prod.mk.injEq] at hkey
  exact hkey

theorem regions_none_of_shape_eq {a b : Memory} (h : b.shape = a.shape) {key : AreaKey}
    (hreg : a.regions key = none) : b.regions key = none := by
  have hkey := congrFun h key
  simpa [Memory.shape, hreg] using hkey

theorem shadow_request {cfg : ServerConfig} {s : Session} {host : Memory} (h : Shadow s.mem host) (req : Bytes) :
    Shadow (handle cfg req s).2.mem host := by
  refine ⟨h.shape_eq.trans (request_shape cfg req s).symm, fun key reg hreg hprot => ?_⟩
  rcases request_mem cfg req s with hsame | ⟨-, -, specs, items, -, -, hstore⟩
  · rw [hsame] at hreg
    exact h.contents key reg hreg hprot
  · obtain ⟨old, hold, -, hflag⟩ := regions_of_shape_eq (request_shape cfg req s).symm hreg
    have hprot' : Protected key old := by rwa [Protected, hflag]
    have hkeep : (storeItems s.mem (acceptedItems s.mem.shape specs items)).regions key = some old :=
      storeItems_protected (fun p hp => mem_acceptedItems hp) hold hprot'
    rw [← hstore, hreg] at hkeep
    cases hkeep
    exact h.contents key _ hold hprot'

/-- The same region set on both sides keeps the shadow. -/
theorem shadow_set {mem host : Memory} (h : Shadow mem host) {key : AreaKey} {reg reg' : Region}
    (hlen : reg'.data.length = reg.data.length) (hflag : reg'.readOnly = reg.readOnly)
    (heq : Protected key reg → reg' = reg) : Shadow (mem.set key reg) (host.set key reg') := by
  refine ⟨by rw [shape_set_new, shape_set_new, h.shape_eq, hlen, hflag], fun k r hr hprot => ?_⟩
  by_cases hk : k = key
  · subst hk
    rw [Memory.set_regions_self] at hr ⊢
    cases hr
    rw [heq hprot]
  · rw [Memory.set_regions_of_ne hk] at hr ⊢
    exact h.contents k r hr hprot

theorem shadow_register {mem host : Memory} (h : Shadow mem host) (area : Area) (db : Int) (data : Bytes)
    (readOnly : Bool) :
    Shadow (Memory.register area db data readOnly mem).2 (Memory.register area db data readOnly host).2 := by
  rw [register_eq, register_eq]
  cases hkey : keyOf area db with
  | fail e => exact h
  | panic => exact h
  | ok key =>
    have hnone : host.regions key = none ↔ mem.regions key = none :=
      ⟨regions_none_of_shape_eq h.shape_eq.symm, regions_none_of_shape_eq h.shape_eq⟩
    simp only [hnone]
    split
    · exact shadow_set h rfl rfl fun _ => rfl
    · exact h

theorem shadow_write {mem host : Memory} (h : Shadow mem host) (area : Area) (db start : Int) (data : Bytes) :
    Shadow (Memory.write area db start data mem).2 (Memory.write area db start data host).2 := by
  rw [write_host_eq, write_host_eq]
  cases hkey : keyOf area db with
  | fail e => exact h
  | panic => exact h
  | ok key =>
    dsimp only
    cases hreg : mem.regions key with
    | none =>
      rw [regions_none_of_shape_eq h.shape_eq hreg]
      exact h
    | some reg =>
      obtain ⟨reg', hreg', hlen, hflag⟩ := regions_of_shape_eq h.shape_eq hreg
      rw [hreg']
      dsimp only
      rw [hlen]
      split
      · refine shadow_set h (by simp [hlen]) hflag fun hprot => ?_
        rw [h.contents key reg hreg hprot] at hreg'
        cases hreg'
        rfl
      · exact h

/-- Dropping the requests of a run leaves a server that shadows it. -/
theorem run_shadow {cfg : ServerConfig} (events : List Event) {srv host : Server} (h : Shadow srv.mem host.mem) :
    Shadow (srv.run cfg events).mem (host.run cfg (events.filter Event.isHost)).mem := by
  induction events generalizing srv host with
  | nil => exact h
  | cons e events ih =>
    cases e with
    | request id req =>
      have hstep : Shadow (srv.step cfg (.request id req)).mem host.mem := shadow_request (s := srv.session id) h req
      exact ih hstep
    | register area db data readOnly =>
      have hstep : Shadow (srv.step cfg (.register area db data readOnly)).mem
          (host.step cfg (.register area db data readOnly)).mem := shadow_register h area db data readOnly
      exact ih hstep
    | read area db start size =>
      have hstep : Shadow (srv.step cfg (.read area db start size)).mem (host.step cfg (.read area db start size)).mem := h
      exact ih hstep
    | write area db start data =>
      have hstep : Shadow (srv.step cfg (.write area db start data)).mem
          (host.step cfg (.write area db start data)).mem := shadow_write h area db start data
      exact ih hstep

theorem run_append (cfg : ServerConfig) (srv : Server) (events later : List Event) :
    srv.run cfg (events ++ later) = (srv.run cfg events).run cfg later := List.foldl_append

/-- The memory invariant over every run of the server: no region is removed, resized or re-flagged; sizes stay in
    range; what clients may not write is what the host put there; and a byte that a request changes lies in an
    S7ANY item of a Write Var job that the answer reports as stored. -/
theorem memory_invariant (cfg : ServerConfig) (events : List Event) :
    (∀ later key reg, ((Server.new cfg).run cfg events).mem.regions key = some reg →
      ∃ reg', ((Server.new cfg).run cfg (events ++ later)).mem.regions key = some reg' ∧
        reg'.data.length = reg.data.length ∧ reg'.readOnly = reg.readOnly) ∧
    (∀ key reg, ((Server.new cfg).run cfg events).mem.regions key = some reg →
      1 ≤ reg.data.length ∧ reg.data.length ≤ maxAreaSize) ∧
    (∀ key reg, ((Server.new cfg).run cfg events).mem.regions key = some reg →
      reg.readOnly = true ∨ key.area.timerOrCounter = true →
      ((Server.new cfg).run cfg (events.filter Event.isHost)).mem.regions key = some reg) ∧
    ∀ id req key reg reg' (i : Nat), ((Server.new cfg).run cfg events).mem.regions key = some reg →
      ((Server.new cfg).run cfg (events ++ [.request id req])).mem.regions key = some reg' →
      reg'.data[i]? ≠ reg.data[i]? →
      ∃ specs items out codes, IsJob req funcWriteVar ∧
        parseWriteVarRequest (paramSection req) (dataSection req) = .ok (specs, items) ∧
        (handle cfg req (((Server.new cfg).run cfg events).session id)).1 = .ok (some out, true) ∧
        responseSections out (requestRef req) = .ok ([funcWriteVar, UInt8.ofNat specs.length], codes) ∧
        parseWriteVarResponseCodes [funcWriteVar, UInt8.ofNat specs.length] codes = .ok codes ∧
        ∃ (j : Nat) (spec : VarSpec), specs[j]? = some spec ∧ codes[j]? = some retCodeSuccess ∧
          spec.syntaxID = syntaxIDS7Any ∧ spec.key = key ∧ spec.byteStart ≤ i ∧
          i < spec.byteStart + spec.byteCount := by
  refine ⟨fun later key reg hreg => ?_, fun key reg hreg => ?_, fun key reg hreg hprot => ?_, ?_⟩
  · have hkept := run_kept cfg ((Server.new cfg).run cfg events) later key (reg.data.length, reg.readOnly)
      (by simp [Memory.shape, hreg])
    rw [run_append]
    simpa [Memory.shape, Option.map_eq_some_iff] using hkept
  · exact run_sized cfg events key reg.data.length reg.readOnly (by simp [Memory.shape, hreg])
  · have hstart : Shadow (Server.new cfg).mem (Server.new cfg).mem := ⟨rfl, fun _ _ h _ => h⟩
    exact (run_shadow events hstart).contents key reg hreg hprot
  · intro id req key reg reg' i hreg hreg' hi
    rw [run_append] at hreg'
    exact request_changed hreg hreg' hi

end S7Comm
