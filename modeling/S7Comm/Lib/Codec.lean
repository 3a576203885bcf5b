import S7Comm.Lib.Bytes

/-! Codecs of fixed width: a value is a string of as many bytes as the codec says, and every such string is one value. -/

namespace Go

structure FixedCodec (α : Type) where
  width : Nat
  encode : α → Bytes
  decode : Bytes → α
  length_encode : ∀ a, (encode a).length = width
  /-- Decoding reads the first bytes, and what follows them does not matter. -/
  decode_append : ∀ b rest, b.length = width → decode (b ++ rest) = decode b
  decode_encode : ∀ a, decode (encode a) = a
  encode_decode : ∀ b, b.length = width → encode (decode b) = b

namespace FixedCodec
variable {α β : Type} (c : FixedCodec α)

theorem decode_take {b : Bytes} (h : c.width ≤ b.length) : c.decode (b.take c.width) = c.decode b := by
  have := c.decode_append (b.take c.width) (b.drop c.width) (by rw [List.length_take]; omega)
  rw [List.take_append_drop] at this
  exact this.symm

theorem decode_encode_append (a : α) (rest : Bytes) : c.decode (c.encode a ++ rest) = a := by
  rw [c.decode_append _ _ (c.length_encode a), c.decode_encode]

/-- The values are read off one by one. -/
theorem encode_decode_take {b : Bytes} (h : c.width ≤ b.length) : c.encode (c.decode b) = b.take c.width := by
  rw [← c.decode_take h, c.encode_decode _ (by rw [List.length_take]; omega)]

/-- The same bytes for values of another type. -/
def map (e : α ≃ β) : FixedCodec β where
  width := c.width
  encode b := c.encode (e.symm b)
  decode d := e (c.decode d)
  length_encode _ := c.length_encode _
  decode_append b rest h := by rw [c.decode_append b rest h]
  decode_encode b := by rw [c.decode_encode, e.apply_symm_apply]
  encode_decode b h := by rw [e.symm_apply_apply, c.encode_decode b h]

end FixedCodec

/-- Below its sign an integer is shifted in the same way with and without it. -/
theorem setWidth_sshiftRight {w : Nat} (v : BitVec w) {n : Nat} (h : n + 8 ≤ w) :
    (v.sshiftRight n).setWidth 8 = (v >>> n).setWidth 8 := by
  refine BitVec.eq_of_getLsbD_eq fun i hi => ?_
  have hlt : n + i < w := by omega
  simp [hi, BitVec.getLsbD_sshiftRight, hlt]
  omega

end Go
