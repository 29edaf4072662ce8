import NvidiaProlapse.Hevc

/-!
# The tile table of HEVC pictures

The tile counts and sizes of a picture parameter set are bounded one by one, and nothing compares
them with the picture. The table covers the picture exactly where each tile gets a block.
-/
namespace NvidiaProlapse.Hevc

/-- The tiles of a picture parameter set as the parser accepts them. -/
structure Tiles where
  uniform : Bool
  /-- Explicit sizes as coded; empty when uniform. -/
  colMinus1 : List ℕ := []
  rowMinus1 : List ℕ := []
  cols : ℕ
  rows : ℕ
  cols_mem : 1 ≤ cols ∧ cols ≤ 20 := by decide
  rows_mem : 1 ≤ rows ∧ rows ≤ 22 := by decide
  coded : (colMinus1.length, rowMinus1.length) = if uniform then (0, 0) else (cols - 1, rows - 1) := by decide
  minus1_le : ∀ x ∈ colMinus1 ++ rowMinus1, x ≤ 2 ^ 12 := by decide

/-- A sequence parameter set with its block size. -/
structure TiledSps extends Sps where
  log2Ctb : ℕ
  log2Ctb_mem : 4 ≤ log2Ctb ∧ log2Ctb ≤ 6 := by decide

variable (sps : TiledSps)

/-- `div_ceil` by the block size. -/
def TiledSps.inCtbs (samples : ℕ) : ℕ :=
  (samples + (2 ^ sps.log2Ctb - 1)) / 2 ^ sps.log2Ctb

def TiledSps.widthCtbs : ℕ := sps.inCtbs sps.width

def TiledSps.heightCtbs : ℕ := sps.inCtbs sps.height

namespace Tiles

variable (t : Tiles) {n total : ℕ} {explicit : List ℕ}

/-- Column widths or row heights (6.5.1, equations 6-3 and 6-4). -/
def derive (n total : ℕ) (explicit : List ℕ) : List ℕ :=
  if t.uniform then (List.range n).map fun i => (i + 1) * total / n - i * total / n
  else explicit.map (· + 1) ++ [total - (explicit.map (· + 1)).sum]

def sizes (width height : ℕ) : List ℕ × List ℕ :=
  (t.derive t.cols width t.colMinus1, t.derive t.rows height t.rowMinus1)

/-- There is a block for each part. -/
def Fits (n total : ℕ) (explicit : List ℕ) : Prop :=
  if t.uniform then n ≤ total else (explicit.map (· + 1)).sum < total

/-- The first `m` parts of a uniform division end at the `m`th boundary. -/
lemma sum_uniform (n total m : ℕ) :
    ((List.range m).map fun i => (i + 1) * total / n - i * total / n).sum = m * total / n := by
  induction m with
  | zero => simp
  | succ m ih =>
    have hle : m * total / n ≤ (m + 1) * total / n :=
      Nat.div_le_div_right (Nat.mul_le_mul_right _ m.le_succ)
    simp [List.range_succ, ih]
    omega

/-- The parts fill the whole, and none is empty. -/
def Partitions (parts : List ℕ) (total : ℕ) : Prop := (∀ x ∈ parts, 1 ≤ x) ∧ parts.sum = total

lemma derive_partitions_iff (hn : 1 ≤ n) :
    Partitions (t.derive n total explicit) total ↔ t.Fits n total explicit := by
  unfold Partitions derive Fits
  cases t.uniform with
  | true =>
    have hsum := sum_uniform n total n
    rw [Nat.mul_div_cancel_left _ hn] at hsum
    simp only [if_true, hsum, and_true]
    constructor
    · intro hall
      have hlen := List.length_le_sum_of_one_le _ hall
      simpa [hsum] using hlen
    intro hle x hx
    obtain ⟨i, -, rfl⟩ := List.mem_map.mp hx
    have hnext : (i * total + n) / n ≤ (i + 1) * total / n :=
      Nat.div_le_div_right (by rw [Nat.succ_mul]; omega)
    rw [Nat.add_div_right _ hn] at hnext
    omega
  | false =>
    simp [or_imp, forall_and]
    omega

lemma length_derive (total : ℕ) (hn : 1 ≤ n) (hcoded : t.uniform = false → explicit.length = n - 1) :
    (t.derive n total explicit).length = n := by
  unfold derive
  cases huniform : t.uniform with
  | true => simp
  | false =>
    simp [hcoded huniform]
    omega

end Tiles

open Tiles

/-- Without tiles the picture is one. -/
def tileSizes : Option Tiles → List ℕ × List ℕ
  | some t => t.sizes sps.widthCtbs sps.heightCtbs
  | none => ([sps.widthCtbs], [sps.heightCtbs])

/-- The entries, rows outer, columns inner; each has two sizes of 16 bits, which hold them all. -/
def tileTable (tiles : Option Tiles) : List (ℕ × ℕ) :=
  (tileSizes sps tiles).2.flatMap fun r => (tileSizes sps tiles).1.map fun c => (c, r)

/-- `TILE_SIZES_SIZE`. -/
def tileSizesSize : ℕ := (20 * 22 * 2 * 2 + 16 + 15) / 16 * 16

/-- The picture has a block for each column and each row. -/
def TilesFit : Option Tiles → Prop
  | some t => t.Fits t.cols sps.widthCtbs t.colMinus1 ∧ t.Fits t.rows sps.heightCtbs t.rowMinus1
  | none => 1 ≤ sps.widthCtbs ∧ 1 ≤ sps.heightCtbs

/-- The table stays inside its area, and it covers the picture exactly where the tiles fit. -/
theorem tiles_cover_iff (tiles : Option Tiles) :
    4 * (tileTable sps tiles).length ≤ tileSizesSize ∧
      (Partitions (tileSizes sps tiles).1 sps.widthCtbs ∧ Partitions (tileSizes sps tiles).2 sps.heightCtbs ↔
        TilesFit sps tiles) := by
  cases tiles with
  | none => simp [tileTable, tileSizes, tileSizesSize, Partitions, TilesFit]
  | some t =>
    refine ⟨?_, and_congr (t.derive_partitions_iff t.cols_mem.1) (t.derive_partitions_iff t.rows_mem.1)⟩
    have hcols := t.length_derive sps.widthCtbs t.cols_mem.1 fun h => by
      simpa [h] using congrArg Prod.fst t.coded
    have hrows := t.length_derive sps.heightCtbs t.rows_mem.1 fun h => by
      simpa [h] using congrArg Prod.snd t.coded
    have hle := Nat.mul_le_mul t.rows_mem.2 t.cols_mem.2
    simp [tileTable, tileSizes, Tiles.sizes, hcols, hrows, tileSizesSize]
    omega

/-- A picture of one block. -/
def oneBlock : TiledSps := { id := 0, width := 16, height := 16, log2Ctb := 4 }

/-- Two uniform columns, and an explicit one of two blocks. -/
theorem tiles_do_not_cover : oneBlock.widthCtbs = 1 ∧
    tileTable oneBlock (some { uniform := true, cols := 2, rows := 1 }) = [(0, 1), (1, 1)] ∧
    tileTable oneBlock (some { uniform := false, colMinus1 := [1], cols := 2, rows := 1 }) =
      [(2, 1), (0, 1)] := by
  decide

end NvidiaProlapse.Hevc
