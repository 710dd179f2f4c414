import ChannelConcat.Proofs.Program.Control
import ChannelConcat.Proofs.X86.Prefixes
import ChannelConcat.Proofs.X86.Rows

/-!
# Listings of code

The listing of a sequence of instructions names each of them in turn, at the number of bytes in
front of it, and marks bytes at the end that are only the beginning of an instruction. The listing
of a routine has no such mark, and its branches lead to places that it lists. Main definition:
`X86.rows`. Main statement: `readListing?_listing_encode`.
-/

namespace ChannelConcat

namespace X86

/-- The rows that name instructions one after the other: each at the number of bytes in front of it,
with branches that start where the next instruction does. -/
def rows (instrs : List Instr) : List Row :=
  instrs.mapIdx fun k instr =>
    ⟨(encode (instrs.take k)).length,
      some (instr.statement (encode (instrs.take (k + 1))).length)⟩

/-- The addresses that a row says its instruction branches to. -/
def Row.targets (row : Row) : List Nat :=
  row.statement?.toList.flatMap fun statement => statement.operands.filterMap fun operand =>
    match operand with
    | .target address => some address
    | _ => none

/-! ## Lines -/

/-- Where an instruction is read, there is a line for it, and the lines go on behind it. -/
theorem linesFrom_of_decode?_eq_some {code : List Byte} {instr : Instr} {size : Nat}
    (h : decode? code = some (instr, size)) (fuel address : Nat) :
    linesFrom (fuel + 1) address code =
      ⟨address, size, some instr⟩ :: linesFrom fuel (address + size) (code.drop size) := by
  cases code with
  | nil => cases h
  | cons byte code => simp only [linesFrom, h]

/-- Where no instruction is read, there is one line for all bytes that are left. -/
theorem linesFrom_of_decode?_eq_none {code : List Byte} (hne : code ≠ [])
    (h : decode? code = none) (fuel address : Nat) :
    linesFrom (fuel + 1) address code = [⟨address, code.length, none⟩] := by
  cases code with
  | nil => exact absurd rfl hne
  | cons byte code => simp only [linesFrom, h]

/-- The lines from an address on name the instructions and, if bytes are left behind them that are
no instruction, the place of those. -/
theorem map_row_linesFrom {cut : List Byte} (hcut : decode? cut = none) (instrs : List Instr)
    {fuel : Nat} (address : Nat) (hfuel : (encode instrs ++ cut).length ≤ fuel) :
    (linesFrom fuel address (encode instrs ++ cut)).map Line.row =
      (instrs.mapIdx fun k instr =>
        ⟨address + (encode (instrs.take k)).length,
          some (instr.statement (address + (encode (instrs.take (k + 1))).length))⟩) ++
        if cut = [] then [] else [⟨address + (encode instrs).length, none⟩] := by
  induction instrs generalizing fuel address with
  | nil =>
      by_cases hne : cut = []
      · subst hne
        cases fuel <;> rfl
      · obtain ⟨fuel, rfl⟩ : ∃ more, fuel = more + 1 :=
          Nat.exists_eq_add_one.2 ((List.length_pos_iff.2 hne).trans_le hfuel)
        have hlines := linesFrom_of_decode?_eq_none hne hcut fuel address
        simp only [encode, List.flatMap_nil, List.nil_append, hlines, if_neg hne]
        rfl
  | cons instr instrs ih =>
      have hpos := List.length_pos_iff.2 instr.encode_ne_nil
      rw [encode_cons, List.append_assoc, List.length_append] at hfuel
      obtain ⟨fuel, rfl⟩ : ∃ more, fuel = more + 1 := Nat.exists_eq_add_one.2 (by omega)
      rw [encode_cons, List.append_assoc,
        linesFrom_of_decode?_eq_some (decode?_encode instr (encode instrs ++ cut)), List.drop_left,
        List.map_cons, ih _ (by omega), List.mapIdx_cons, List.cons_append]
      simp [Line.row, encode, Nat.add_assoc]

/-- The listing of instructions, perhaps with the beginning of one more behind them, is read back as
their rows and one row for that beginning. -/
theorem readListing?_encode_append {cut : List Byte} (hcut : decode? cut = none)
    (instrs : List Instr) :
    readListing? (listing (encode instrs ++ cut)) =
      some (rows instrs ++ if cut = [] then [] else [⟨(encode instrs).length, none⟩]) := by
  rw [readListing?_listing, lines, map_row_linesFrom hcut instrs 0 le_rfl]
  simp only [Nat.zero_add, rows]

/-! ## Branches -/

/-- A row whose instruction goes to an address is that of a branch there. -/
theorem exists_jump_of_mem_targets {instr : Instr} {address next target : Nat}
    (h : target ∈ (Row.mk address (some (instr.statement next))).targets) :
    ∃ condition displacement, instr = .jump condition displacement ∧
      target = (branchTarget next displacement).toNat := by
  cases instr with
  | jump condition displacement =>
      exact ⟨condition, displacement, rfl, by simpa [Row.targets, Instr.statement] using h⟩
  | clampV1 width clamp => cases clamp <;> simp [Row.targets, Instr.statement] at h
  | _ => simp [Row.targets, Instr.statement] at h

/-- Each row stands for one of the instructions. -/
theorem exists_split_of_mem_rows {instrs : List Instr} {row : Row} (h : row ∈ rows instrs) :
    ∃ before instr after, instrs = before ++ instr :: after ∧
      row = ⟨(encode before).length,
        some (instr.statement ((encode before).length + instr.encode.length))⟩ := by
  obtain ⟨k, hk, rfl⟩ := List.mem_mapIdx.1 h
  refine ⟨instrs.take k, instrs[k], instrs.drop (k + 1), ?_, ?_⟩
  · rw [List.getElem_cons_drop, List.take_append_drop]
  · rw [List.take_succ_eq_append_getElem hk, encode_append, List.length_append, encode_cons,
      List.length_append]
    rfl

/-- There is a row where an instruction starts. -/
theorem exists_mem_rows (before : List Instr) (instr : Instr) (after : List Instr) :
    ∃ row ∈ rows (before ++ instr :: after), row.address = (encode before).length := by
  refine ⟨_, List.mem_mapIdx.2 ⟨before.length, by simp, rfl⟩, ?_⟩
  rw [List.take_left]

end X86

namespace Program

open X86

/-- The branches of a routine go to places where its instructions start. -/
theorem exists_mem_rows_of_mem_targets {selection : Selection} {bounds : LoopBounds}
    {instrs : List Instr} (h : assemble (items selection bounds) = some instrs) {row : Row}
    (hrow : row ∈ rows instrs) {target : Nat} (htarget : target ∈ row.targets) :
    ∃ other ∈ rows instrs, other.address = target := by
  obtain ⟨before, instr, after, hsplit, rfl⟩ := exists_split_of_mem_rows hrow
  obtain ⟨condition, displacement, rfl, rfl⟩ := exists_jump_of_mem_targets htarget
  obtain ⟨head, first, tail, hhead, -, hreached⟩ := exists_split_of_jump h hsplit
  rw [hhead]
  obtain ⟨other, hother, haddress⟩ := exists_mem_rows head first tail
  exact ⟨other, hother, haddress.trans hreached.symm⟩

end Program

/-! ## Listings of instructions and of routines -/

open X86

/-- A listing is faithful to the code. Whatever the instructions are, and whatever proper beginning
of one more instruction stands behind them, the listing is read back as their rows, followed by a
row for the beginning unless that is empty. Hence the listing of a routine has a row for each of its
instructions, no other rows, and a row at every address that a branch goes to. -/
theorem readListing?_listing_encode :
    (∀ (instrs : List Instr) (instr : Instr) (cut : List Byte), cut <+: instr.encode →
      cut ≠ instr.encode → readListing? (listing (encode instrs ++ cut)) =
        some (rows instrs ++ if cut = [] then [] else [⟨(encode instrs).length, none⟩])) ∧
    ∀ (isa : Isa) (spec : Spec) (code : List Byte), generate isa spec = .ok code →
      ∃ selection bounds instrs, select spec.bits spec.elem spec.relu = .ok selection ∧
        spec.loopBounds = .ok bounds ∧ assemble (Program.items selection bounds) = some instrs ∧
        encode instrs = code ∧ readListing? (listing code) = some (rows instrs) ∧
        (rows instrs).length = instrs.length ∧
        (∀ row ∈ rows instrs, row.statement? ≠ none) ∧
        ∀ row ∈ rows instrs, ∀ target ∈ row.targets,
          ∃ other ∈ rows instrs, other.address = target := by
  constructor
  · intro instrs instr cut hcut hne
    exact readListing?_encode_append (decode?_eq_none_of_cut hcut hne) instrs
  · intro isa spec code h
    obtain ⟨selection, bounds, instrs, hselect, -, -, hbounds, hassemble, rfl⟩ :=
      generate_eq_ok_iff.1 h
    refine ⟨selection, bounds, instrs, hselect, hbounds, hassemble, rfl, ?_, List.length_mapIdx,
      ?_, ?_⟩
    · have hread := readListing?_encode_append (show decode? [] = none from rfl) instrs
      rwa [List.append_nil, if_pos rfl, List.append_nil] at hread
    · intro row hrow
      obtain ⟨before, instr, after, -, rfl⟩ := exists_split_of_mem_rows hrow
      exact Option.some_ne_none _
    · intro row hrow target htarget
      exact Program.exists_mem_rows_of_mem_targets hassemble hrow htarget

/-- Two instructions with negative numbers and the first two bytes of a third one, and the routine
of two inputs. -/
theorem readListing?_listing_encode_cut :
    readListing? (listing (encode [.add .r8 (-16), .jump .greater (-7)] ++ [0xC5, 0xF8])) =
      some [⟨0, some ⟨"add", [.register "r8", .immediate 0xFFFFFFFFFFFFFFF0]⟩⟩,
        ⟨4, some ⟨"jg", [.target 0xFFFFFFFFFFFFFFFF]⟩⟩, ⟨6, none⟩] ∧
    ∃ code, generate .avx2 ⟨2, true, .s8, 1, 16, 128, ⟨1, 1, 1, 32⟩⟩ = .ok code ∧
      ∃ instrs, readListing? (listing code) = some (rows instrs) ∧ instrs.length = 26 ∧
        ∀ row ∈ rows instrs, row.statement? ≠ none := by
  constructor
  · exact readListing?_listing_encode.1 [.add .r8 (-16), .jump .greater (-7)] (.loadV1 .xmm)
      [0xC5, 0xF8] (by decide) (by decide)
  · obtain ⟨code, hcode⟩ :
        ∃ code, generate .avx2 ⟨2, true, .s8, 1, 16, 128, ⟨1, 1, 1, 32⟩⟩ = .ok code :=
      exists_generate ⟨.xmm, some .maxI8⟩ ⟨2, 16⟩ rfl rfl (by decide) rfl
    obtain ⟨selection, bounds, instrs, hselect, hbounds, hassemble, -, hread, -, hwhole, -⟩ :=
      readListing?_listing_encode.2 _ _ code hcode
    cases hselect
    cases hbounds
    refine ⟨code, hcode, instrs, hread, ?_, hwhole⟩
    cases hassemble
    decide

end ChannelConcat
