import ChannelConcat.Proofs.Calls
import ChannelConcat.Proofs.Checks
import ChannelConcat.Proofs.Sessions
import ChannelConcat.Proofs.Windows

/-!
# Agreement of the two kernels

A concatenation that was prepared with a generated routine leaves the same target as the copy
element by element, for every run of its rows and every bit pattern. The machine code of the
routine makes each row of that target. Main statement: `execute_eq_interleave`.
-/

namespace ChannelConcat.Concat

open X86

/-- The bytes of a row of each source. -/
def sourceRows (scalar : Scalar) (sources : List (Array scalar.Value)) (channels : List Nat)
    (index : Nat) : List (List Byte) :=
  (sources.zip channels).map fun source => (rowBytes scalar index source).toList

/-- The bytes of a row of a buffer. -/
def targetRow (scalar : Scalar) (buffer : Array scalar.Value) (channels index : Nat) : List Byte :=
  (rowBytes scalar index (buffer, channels)).toList

/-- After any requests to a compiler, a concatenation that it prepares with a generated routine
fills every target that fits as the copy element by element does, and each row of this target is
what the machine code of the routine makes of the rows of the sources. -/
theorem execute_eq_interleave {host isa : Isa} {options : Options} {requests : List Request}
    {inputs : List Tensor} {output : Tensor} {relu : Bool} {concat : Concat} {handle : Handle}
    {counts : List (BitVec 32)}
    (hprepared : (prepare (Compiler.after { host, isa, options } requests) inputs output
      relu).result = .ok concat)
    (hkernel : concat.kernel = .generated handle counts) {threads : Nat} (hthreads : 0 < threads)
    (hlimit : threads * 4 < Size.limit) {scalar : Scalar} {sources : List (Array scalar.Value)}
    {target : Array scalar.Value} (hmatches : concat.Matches scalar sources target) {pixels : Nat}
    (hpixels : output.pixels = .ok pixels) :
    ∃ filled : Array scalar.Value,
      interleave (if relu then scalar.clamp else id) sources (inputs.map Tensor.channels) target =
        ⟨filled, none⟩ ∧
      concat.execute threads scalar sources target = (filled, .ok ()) ∧
      ∀ index < pixels, handle.routine.Makes counts
        (sourceRows scalar sources (inputs.map Tensor.channels) index)
        (targetRow scalar filled output.channels index) := by
  -- The routine may come from the cache; its code is generated for its specification all the same.
  have hgenerated : handle.IsGenerated isa :=
    ((Compiler.sound_of_entries_eq_nil rfl).after requests).prepare inputs output relu |>.2
      concat handle counts hprepared hkernel
  obtain ⟨hvalid, rfl, rfl, rfl⟩ := valid_of_prepare hprepared
  refine ⟨(concat.image scalar sources).toArray, hvalid.interleave_eq hmatches,
    hvalid.execute_of_matches hpixels hmatches hthreads hlimit, ?_⟩
  intro index hindex
  obtain ⟨-, rfl, -⟩ := Tensor.pixels_eq_ok_iff.1 hpixels
  obtain ⟨maxBits, block, hsettled, rfl, hblocks⟩ := hvalid.exists_settled hkernel hmatches
  have hrow : targetRow scalar (concat.image scalar sources).toArray concat.output.channels index =
      (concat.imageRow scalar sources index).flatMap (Word.toBytes scalar.bytes) := by
    rw [targetRow, rowBytes, hvalid.rowItems_image hmatches hindex]
    rfl
  rw [hrow]
  exact makes_row hsettled hgenerated hmatches.elem
    (by rw [List.length_zip, ← hmatches.length_channels, Nat.min_self, hmatches.length])
    (hblocks index hindex)

/-- Two inputs of four and of eight channels at two positions, with numbers below zero, both zeros
and a NaN, prepared in a session that has planned them and cleared the cache before. Called for each
row on buffers in windows of memory, the machine code returns with this row at the target. -/
theorem execute_eq_interleave_two_inputs :
    let inputs : List Tensor := [.interleaved .f32 ⟨1, 1, 2, 4⟩, .interleaved .f32 ⟨1, 1, 2, 8⟩]
    let output : Tensor := .interleaved .f32 ⟨1, 1, 2, 12⟩
    let requests : List Request := [.plan inputs output true, .clear]
    let sources : List (Array Scalar.f32.Value) :=
      [#[0xbf800000, 0x80000000, 0, 0xffc00000, 1, 2, 3, 4], Array.replicate 16 0xc0000000]
    let target : Array Scalar.f32.Value := Array.replicate 24 7
    let rows (index : Nat) : List (List Byte) :=
      sourceRows .f32 sources (inputs.map Tensor.channels) index
    ∃ concat handle counts,
      (prepare (Compiler.after { host := .avx512, isa := .avx2 } requests) inputs output
        true).result = .ok concat ∧
      concat.kernel = .generated handle counts ∧ 0 < 1 ∧ 1 * 4 < Size.limit ∧
      concat.Matches .f32 sources target ∧ output.pixels = .ok 2 ∧
      ∃ filled : Array Scalar.f32.Value,
        interleave (if true then Scalar.f32.clamp else id) sources (inputs.map Tensor.channels)
          target = ⟨filled, none⟩ ∧
        concat.execute 1 .f32 sources target = (filled, .ok ()) ∧
        (∀ index < 2, handle.routine.Makes counts (rows index)
          (targetRow .f32 filled output.channels index)) ∧
        ∀ index < 2,
          let call : Call := ⟨(rows index).map List.toArray, counts, Array.replicate 48 7⟩
          ∃ steps, AtReturn handle.routine.code (run handle.routine.code steps call.entryState) ∧
            (run handle.routine.code steps call.entryState).memory.load Call.Window.target.address
              48 = targetRow .f32 filled output.channels index := by
  intro inputs output requests sources target rows
  have hplan : ChannelConcat.plan
      (Compiler.after { host := .avx512, isa := .avx2 } requests).maxBits inputs output true =
      .ok (Plan.spec inputs output true 4) :=
    plan_eq_ok_iff.2 ⟨rfl, rfl, by decide, by decide, 4, by decide +kernel, rfl⟩
  have hdefect : Shape.defect inputs output = none := rfl
  obtain ⟨concat, handle, hprepared, hkernel⟩ := exists_prepare_of_plan hdefect (by decide +kernel)
    hplan (by decide +kernel)
  obtain ⟨-, hinputs, houtput, -⟩ := valid_of_prepare hprepared
  have hlength : sources.length = inputs.length := rfl
  have hsources : ∀ pair ∈ sources.zip inputs,
      pair.1.size = pair.2.positions * pair.2.channels := by decide +kernel
  have htarget : target.size = output.positions * output.channels := by decide +kernel
  have hmatches : concat.Matches .f32 sources target :=
    ⟨congrArg Tensor.elem houtput.symm, hlength.trans (congrArg List.length hinputs.symm),
      hinputs.symm ▸ hsources, houtput.symm ▸ htarget⟩
  have hpixels : output.pixels = .ok 2 := rfl
  have hthreads : 0 < 1 := by decide
  have hlimit : 1 * 4 < Size.limit := by decide
  obtain ⟨filled, hfilled, hexecute, hmakes⟩ :=
    execute_eq_interleave hprepared hkernel hthreads hlimit hmatches hpixels
  refine ⟨concat, handle, _, hprepared, hkernel, hthreads, hlimit, hmatches, hpixels, filled,
    hfilled, hexecute, hmakes, ?_⟩
  have hrow : ∀ index < 2, 48 = (targetRow .f32 filled output.channels index).length := by
    obtain rfl : (interleave Scalar.f32.clamp sources (inputs.map Tensor.channels) target).buffer =
      filled := congrArg Filled.buffer hfilled
    decide +kernel
  have hrows : ∀ index < 2, ∀ row ∈ (rows index).map List.toArray, row.size ≤ Call.windowBytes := by
    decide +kernel
  intro index hindex call
  have hcall : call.sources.map Array.toList = rows index := by
    rw [List.map_map]
    exact List.map_id _
  have hfits : call.Fits := ⟨rfl, show 2 < 2 ^ 20 by decide, hrows index hindex,
    show 48 ≤ Call.windowBytes by decide⟩
  exact Routine.Makes.exists_run (hcall ▸ hmakes index hindex) hfits (hrow index hindex)

end ChannelConcat.Concat
