import ChannelConcat.Proofs.Checks

/-!
# Faults of accepted concatenations

A concatenation that was accepted runs without a fault, but for one case: the positions of its
output are counted from the left, so a product that is no size before a dimension of zero is a fault
although the exact count is zero. Main statement: `execute_eq_breach_iff`.
-/

namespace ChannelConcat.Concat

/-- A concatenation that some compiler accepted faults exactly on buffers of the right type and
number for an output whose positions, counted from the left, leave the range of sizes. The fault is
always that of a product. -/
theorem execute_eq_breach_iff {compiler : Compiler} {inputs : List Tensor} {output : Tensor}
    {relu : Bool} {concat : Concat}
    (haccepted : (prepare compiler inputs output relu).result = .ok concat) {threads : Nat}
    (hthreads : 0 < threads) (hlimit : threads * 4 < Size.limit) (scalar : Scalar)
    (sources : List (Array scalar.Value)) (target : Array scalar.Value) (fault : Fault) :
    (concat.execute threads scalar sources target).2 = breach fault ↔
      fault = .product ∧ scalar.elem = output.elem ∧ sources.length = inputs.length ∧
        (Size.limit ≤ output.dims.batch * output.dims.height ∨
          Size.limit ≤ output.dims.batch * output.dims.height * output.dims.width) := by
  obtain ⟨hvalid, rfl, rfl, -⟩ := valid_of_prepare haccepted
  rw [hvalid.execute_breach_iff hthreads hlimit sources target, Tensor.pixels_eq_error_iff]
  exact ⟨fun ⟨helem, hlength, hfault, hoverflow⟩ => ⟨hfault, helem, hlength, hoverflow⟩,
    fun ⟨hfault, helem, hlength, hoverflow⟩ => ⟨helem, hlength, hfault, hoverflow⟩⟩

/-- A tensor without elements whose rows are too many to be counted. -/
def tallInput : Tensor :=
  .interleaved .f32 ⟨2 ^ 64 - 1, 2, 0, 4⟩

/-- The concatenation of the tall tensor alone, without generated code. -/
def tallConcat : Concat :=
  ⟨[tallInput], tallInput, false, 1024, .scalar⟩

/-- The faults of the concatenation of the tall tensor on empty buffers. -/
theorem execute_eq_breach_iff_tallConcat :
    (prepare { host := .scalar, isa := .scalar } [tallInput] tallInput false).result =
        .ok tallConcat ∧
      0 < 1 ∧ 1 * 4 < Size.limit ∧
      ((tallConcat.execute 1 .f32 [#[]] #[]).2 = breach .product ↔
        Fault.product = .product ∧ Scalar.f32.elem = tallInput.elem ∧
          [(#[] : Array Scalar.f32.Value)].length = [tallInput].length ∧
          (Size.limit ≤ tallInput.dims.batch * tallInput.dims.height ∨
            Size.limit ≤
              tallInput.dims.batch * tallInput.dims.height * tallInput.dims.width)) := by
  have haccepted : (prepare { host := .scalar, isa := .scalar } [tallInput] tallInput
      false).result = .ok tallConcat := rfl
  exact ⟨haccepted, by decide, by decide,
    execute_eq_breach_iff haccepted (by decide) (by decide) .f32 [#[]] #[] .product⟩

/-- The concatenation of the tall tensor is accepted, and faults on the empty buffers that match its
shapes. -/
theorem execute_tallConcat :
    (prepare { host := .scalar, isa := .scalar } [tallInput] tallInput false).result =
        .ok tallConcat ∧
      tallInput.elements? = some 0 ∧
      (tallConcat.execute 1 .f32 [#[]] #[]).2 = breach .product :=
  ⟨rfl, rfl, rfl⟩

end ChannelConcat.Concat
