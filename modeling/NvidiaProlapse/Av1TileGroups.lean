import NvidiaProlapse.Runs

/-!
# Tile groups of an AV1 frame

A group names its first and last tile and carries their data, each tile but the last with its
size. The parser appends the data to the bitstream and the range of each tile to the list of
tiles; the group with the last tile completes the frame.
-/
namespace NvidiaProlapse.Av1.TileGroups

open Runs List

structure TileInfo where
  cols : ℕ
  rows : ℕ
  colsLog2 : ℕ
  rowsLog2 : ℕ
  sizeBytes : ℕ
  cols_pos : 0 < cols
  rows_pos : 0 < rows

variable (t : TileInfo)

def TileInfo.count : ℕ := t.cols * t.rows

/-- The bytes of a tile in the bitstream. -/
structure TileRange where
  start : ℕ
  stop : ℕ
  /-- History: the number of the tile in its group. -/
  number : ℕ
  deriving DecidableEq

structure Assembly where
  bitstream : List UInt8 := []
  tiles : List TileRange := []
  done : Bool := false
  deriving DecidableEq

inductive Av1Error where
  | truncated (what : String)

def bit (data : List UInt8) (i : ℕ) : ℕ := (data.getD (i / 8) 0).toNat / 2 ^ (7 - i % 8) % 2

/-- Read `n` bits from position `pos` on. -/
def readBits (data : List UInt8) (pos n : ℕ) : ℕ :=
  (List.range n).foldl (fun v i => 2 * v + bit data (pos + i)) 0

/-- First tile, last tile and bytes of the header. -/
def groupHeader (data : List UInt8) : Except Av1Error (ℕ × ℕ × ℕ) :=
  if t.count = 1 then .ok (0, t.count - 1, 0)
  else if data = [] then .error (.truncated "f(n)")
  else if bit data 0 = 0 then .ok (0, t.count - 1, 1)
  else
    let bits := t.colsLog2 + t.rowsLog2
    if 8 * data.length < 1 + 2 * bits then .error (.truncated "f(n)")
    else .ok (readBits data 1 bits, readBits data (1 + bits) bits, (1 + 2 * bits + 7) / 8)

def littleEndian (bytes : List UInt8) : ℕ := bytes.foldr (fun b v => b.toNat + 256 * v) 0

def word (n : ℕ) : ℕ := n % 2 ^ 32

/-- The tiles from `n` on, with `left` tiles after it. -/
def groupTiles (t : TileInfo) (base : ℕ) (payload : List UInt8) :
    ℕ → ℕ → ℕ → List TileRange → Except Av1Error (List TileRange)
  | 0, n, pos, tiles => .ok (tiles ++ [⟨word (base + pos), word (base + payload.length), n⟩])
  | left + 1, n, pos, tiles =>
    if payload.length < pos + t.sizeBytes then .error (.truncated "tile_size_minus_1")
    else
      let size := littleEndian ((payload.drop pos).take t.sizeBytes) + 1
      let pos := pos + t.sizeBytes
      if payload.length < pos + size then .error (.truncated "tile data")
      else groupTiles t base payload left (n + 1) (pos + size)
        (tiles ++ [⟨word (base + pos), word (base + (pos + size)), n⟩])

def parseTileGroup (data : List UInt8) (a : Assembly) : Except Av1Error Assembly := do
  let (first, last, header) ← groupHeader t data
  let payload := data.drop header
  let tiles ← if last < first then .ok a.tiles
    else groupTiles t a.bitstream.length payload (last - first) first 0 a.tiles
  .ok ⟨a.bitstream ++ payload, tiles, last = t.count - 1⟩

/-- A frame takes groups until it is complete; an error drops it. -/
def step (a : Assembly) (data : List UInt8) : Option Assembly :=
  if a.done then none else (parseTileGroup t data a).toOption

/-- The group continues with the next tile, and the data is addressed with 32 bits. -/
def Continues (a : Assembly) (data : List UInt8) : Prop :=
  ((groupHeader t data).toOption.all fun h => h.1 = a.tiles.length ∧ h.1 ≤ h.2.1) ∧
    a.bitstream.length + data.length < 2 ^ 32

instance (t : TileInfo) (a : Assembly) (data : List UInt8) : Decidable (Continues t a data) :=
  inferInstanceAs (Decidable (_ ∧ _))

/-! ## The tiles collected so far -/

/-- The tiles are numbered in order, and their ranges follow each other up to `stop`. -/
structure Tiled (stop : ℕ) (tiles : List TileRange) : Prop where
  numbers : tiles.map TileRange.number = List.range tiles.length
  inside : ∀ r ∈ tiles, r.start ≤ r.stop ∧ r.stop ≤ stop
  apart : tiles.Pairwise fun r r' => r.stop ≤ r'.start

variable {t : TileInfo} {a b : Assembly} {data payload : List UInt8}

lemma Tiled.add {stop stop' : ℕ} {tiles : List TileRange} (h : Tiled stop tiles) {start : ℕ}
    (hle : stop ≤ start) (hstop : start ≤ stop') :
    Tiled stop' (tiles ++ [⟨start, stop', tiles.length⟩]) where
  numbers := by simp [range_succ, h.numbers]
  inside := by
    refine forall_mem_append.mpr ⟨fun r hr => ?_, forall_mem_singleton.mpr ⟨hstop, le_rfl⟩⟩
    have := h.inside r hr
    omega
  apart := by
    refine pairwise_append.mpr ⟨h.apart, pairwise_singleton _ _, fun r hr => ?_⟩
    rw [forall_mem_singleton]
    exact (h.inside r hr).2.trans hle

/-- A loop over the tiles of a group adds one range for each. -/
lemma groupTiles_tiled {base left pos : ℕ} {tiles out : List TileRange}
    (hword : base + payload.length < 2 ^ 32) (hpos : pos ≤ payload.length)
    (h : Tiled (base + pos) tiles)
    (hout : groupTiles t base payload left tiles.length pos tiles = .ok out) :
    Tiled (base + payload.length) out ∧ out.length = tiles.length + left + 1 := by
  induction left generalizing pos tiles with
  | zero =>
    cases hout
    rw [word, word, Nat.mod_eq_of_lt (by omega), Nat.mod_eq_of_lt hword]
    exact ⟨h.add le_rfl (by omega), by simp⟩
  | succ left ih =>
    simp only [groupTiles] at hout
    split_ifs at hout with hsize hdata
    rw [word, word, Nat.mod_eq_of_lt (by omega), Nat.mod_eq_of_lt (by omega)] at hout
    generalize hnext : pos + t.sizeBytes + (littleEndian _ + 1) = next at *
    have hle : base + pos ≤ base + (pos + t.sizeBytes) := by omega
    have hadd : Tiled (base + next) _ := h.add hle (by omega)
    obtain ⟨htiled, hlength⟩ := ih (by omega) hadd (by simpa using hout)
    exact ⟨htiled, by simpa using hlength.trans (by simp; omega)⟩

/-- A frame under assembly; the last tile completes it. -/
structure Assembled (t : TileInfo) (a : Assembly) : Prop where
  tiled : Tiled a.bitstream.length a.tiles
  complete : a.done → a.tiles.length = t.count

lemma step_assembled (ha : Assembled t a) (hg : Continues t a data) (hstep : step t a data = some b) :
    Assembled t b := by
  obtain ⟨hnext, hword⟩ := hg
  have hcount : 0 < t.count := Nat.mul_pos t.cols_pos t.rows_pos
  unfold step parseTileGroup at hstep
  split_ifs at hstep
  rcases hheader : groupHeader t data with _ | ⟨first, last, header⟩
  · rw [hheader] at hstep
    cases hstep
  simp only [hheader, Except.toOption, Option.all_some, decide_eq_true_eq] at hnext
  obtain ⟨rfl, hle⟩ := hnext
  simp only [hheader, bind, Except.bind, if_neg (not_lt.mpr hle)] at hstep
  cases htiles : groupTiles t a.bitstream.length (data.drop header) (last - a.tiles.length)
      a.tiles.length 0 a.tiles with
  | error e =>
    rw [htiles] at hstep
    cases hstep
  | ok tiles =>
    rw [htiles] at hstep
    cases hstep
    have hdrop : (data.drop header).length ≤ data.length := by simp
    obtain ⟨htiled, hlength⟩ := groupTiles_tiled (by omega) (Nat.zero_le _) ha.tiled htiles
    refine ⟨by simpa using htiled, fun hdone => ?_⟩
    have hlast : last = t.count - 1 := by simpa using hdone
    show tiles.length = t.count
    omega

/-- A completed frame has every tile once and in order, in disjoint ranges of the bitstream, and
each has a row and a column. -/
theorem tiles_complete {groups : List (List UInt8)} (hrun : run (step t) {} groups = some a)
    (hdone : a.done = true) (hg : Along (step t) (Continues t) {} groups) :
    a.tiles.map TileRange.number = List.range t.count ∧
      (∀ r ∈ a.tiles, r.start ≤ r.stop ∧ r.stop ≤ a.bitstream.length) ∧
      a.tiles.Pairwise (fun r r' => r.stop ≤ r'.start) ∧
      ∀ n < a.tiles.length, n / t.cols < t.rows ∧ n % t.cols < t.cols := by
  have hstart : Assembled t {} := ⟨⟨rfl, by simp, List.Pairwise.nil⟩, by simp⟩
  have ha := run_invariant_along (fun _ _ _ => step_assembled) hstart hg hrun
  have hlength := ha.complete hdone
  refine ⟨hlength ▸ ha.tiled.numbers, ha.tiled.inside, ha.tiled.apart, fun n hn => ?_⟩
  rw [hlength] at hn
  exact ⟨Nat.div_lt_of_lt_mul hn, Nat.mod_lt _ t.cols_pos⟩

/-- Two by two tiles with sizes of one byte. -/
def fourTiles : TileInfo := ⟨2, 2, 1, 1, 1, by decide, by decide⟩

/-- Tiles 0 and 1, then 2 and 3: two bytes and one byte, then twice one byte. -/
def twoGroups : List (List UInt8) := [[0b10001000, 1, 7, 7, 8], [0b11011000, 0, 9, 10]]

theorem tiles_complete_twoGroups : ∃ a, run (step fourTiles) {} twoGroups = some a ∧
    a.tiles.map TileRange.number = [0, 1, 2, 3] := by
  obtain ⟨a, hrun, hdone⟩ := exists_run_of_view
    (by decide : (run (step fourTiles) {} twoGroups).map Assembly.done = some true)
  exact ⟨a, hrun, (tiles_complete hrun hdone (by decide)).1⟩

/-- A single group that names only the last tile completes the frame. -/
theorem last_tile_completes : run (step fourTiles) {} [[0b11111000, 5]] =
    some ⟨[5], [⟨0, 1, 3⟩], true⟩ := by decide

end NvidiaProlapse.Av1.TileGroups
