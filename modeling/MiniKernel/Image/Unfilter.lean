-- The rows of a PNG (user/sdk/src/image_png.c): the decoder takes back what the filters of
-- the specification did. It has bounded the sizes by then, so that no index wraps.
import MiniKernel.Lib.Store
import MiniKernel.Lib.Word

open mini_kernel.lib

namespace mini_kernel.image

/-! ## The decoder -/

def channels_of (color_type : UInt8) : Nat :=
  if color_type = 2 then 3 else if color_type = 6 then 4 else 0

def paeth (left above upper_left : UInt8) : UInt8 :=
  let p : Int := left.toNat + above.toNat - upper_left.toNat
  let pa := if p > left.toNat then p - left.toNat else left.toNat - p
  let pb := if p > above.toNat then p - above.toNat else above.toNat - p
  let pc := if p > upper_left.toNat then p - upper_left.toNat else upper_left.toNat - p
  if pa ≤ pb ∧ pa ≤ pc then left else if pb ≤ pc then above else upper_left

def predictor (filter left up upper_left : UInt8) : UInt8 :=
  if filter = 0 then 0
  else if filter = 1 then left
  else if filter = 2 then up
  else if filter = 3 then UInt8.ofNat ((left.toNat + up.toNat) / 2)
  else paeth left up upper_left

section
variable (raw : Memory) (row_bytes channels : Nat)

/-- Byte `x` of row `y`. The bytes are written from the start of the buffer on, so the buffer
is the list of those written so far. -/
def unfilter_byte (y x : Nat) (filtered : Bytes) : Bytes :=
  let source := y * (row_bytes + 1) + 1
  let row := y * row_bytes
  let above := row - row_bytes
  let left := if x < channels then 0 else filtered.getD (row + (x - channels)) 0
  let up := if y = 0 then 0 else filtered.getD (above + x) 0
  let upper_left := if y = 0 ∨ x < channels then 0 else filtered.getD (above + (x - channels)) 0
  filtered ++ [raw (source + x) + predictor (raw (y * (row_bytes + 1))) left up upper_left]

/-- The loop over a row, as far as some byte. -/
def unfilter_row (y : Nat) (filtered : Bytes) : Nat → Bytes
  | 0 => filtered
  | x + 1 => unfilter_byte raw row_bytes channels y x (unfilter_row y filtered x)

/-- The loop over the rows, as far as some row. It ends at a filter that does not exist. -/
def unfilter : Nat → Option Bytes
  | 0 => some []
  | y + 1 => do
    let filtered ← unfilter y
    if raw (y * (row_bytes + 1)) > 4 then none
    else some (unfilter_row raw row_bytes channels y filtered row_bytes)

end

/-! ## The filters of the specification -/

inductive FilterType
  | none | sub | up | average | paeth

def FilterType.code : FilterType → UInt8
  | .none => 0
  | .sub => 1
  | .up => 2
  | .average => 3
  | .paeth => 4

/-- The neighbour that is nearest to `a + b - c`. -/
def paeth_predictor (a b c : UInt8) : UInt8 :=
  let p : Int := a.toNat + b.toNat - c.toNat
  let pa := (p - a.toNat).natAbs
  let pb := (p - b.toNat).natAbs
  let pc := (p - c.toNat).natAbs
  if pa ≤ pb ∧ pa ≤ pc then a else if pb ≤ pc then b else c

/-- What a filter expects of a byte, from those left of it, above it, and left above it. -/
def FilterType.predict : FilterType → UInt8 → UInt8 → UInt8 → UInt8
  | .none, _, _, _ => 0
  | .sub, a, _, _ => a
  | .up, _, b, _ => b
  | .average, a, b, _ => UInt8.ofNat ((a.toNat + b.toNat) / 2)
  | .paeth, a, b, c => paeth_predictor a b c

/-- The filtered rows of a picture, each one after the number of its filter. A neighbour
outside of the picture is zero. -/
def filtered_rows (data : Memory) (types : Nat → FilterType) (row_bytes bpp : Nat) : Memory := fun i =>
  let y := i / (row_bytes + 1)
  match i % (row_bytes + 1) with
  | 0 => (types y).code
  | x + 1 =>
    let place := y * row_bytes + x
    let a := if x < bpp then 0 else data (place - bpp)
    let b := if y = 0 then 0 else data (place - row_bytes)
    let c := if y = 0 ∨ x < bpp then 0 else data (place - row_bytes - bpp)
    data place - (types y).predict a b c

/-! ## The way back -/

theorem paeth_eq (a b c : UInt8) : paeth a b c = paeth_predictor a b c := by
  have habs : ∀ p q : Int, (if p > q then p - q else q - p) = (p - q).natAbs := by
    intro p q
    split <;> omega
  simp only [paeth, paeth_predictor, habs, Int.ofNat_le]

theorem predictor_code (t : FilterType) (a b c : UInt8) : predictor t.code a b c = t.predict a b c := by
  cases t
  case paeth => exact paeth_eq a b c
  all_goals rfl

theorem code_le (t : FilterType) : ¬ t.code > 4 := by
  cases t <;> decide

section
variable {data : Memory} (types : Nat → FilterType) {row_bytes channels x y : Nat}

theorem row_div_mod (hx : x < row_bytes + 1) :
    (y * (row_bytes + 1) + x) / (row_bytes + 1) = y ∧ (y * (row_bytes + 1) + x) % (row_bytes + 1) = x := by
  rw [Nat.add_comm, Nat.add_mul_div_right _ _ (Nat.succ_pos _), Nat.add_mul_mod_self_right,
    Nat.div_eq_of_lt hx, Nat.mod_eq_of_lt hx, Nat.zero_add]
  exact ⟨rfl, rfl⟩

theorem filtered_rows_type :
    filtered_rows data types row_bytes channels (y * (row_bytes + 1)) = (types y).code := by
  obtain ⟨hdiv, hmod⟩ := row_div_mod (y := y) (Nat.succ_pos row_bytes)
  rw [Nat.add_zero] at hdiv hmod
  simp only [filtered_rows, hdiv, hmod]

/-- A byte comes back where all bytes before it have. -/
theorem unfilter_byte_restores (hx : x < row_bytes) (hc : 0 < channels) :
    unfilter_byte (filtered_rows data types row_bytes channels) row_bytes channels y x
      (load data 0 (y * row_bytes + x)) = load data 0 (y * row_bytes + (x + 1)) := by
  obtain ⟨hdiv, hmod⟩ := row_div_mod (y := y) (Nat.succ_lt_succ hx)
  have hrow : y ≠ 0 → row_bytes ≤ y * row_bytes := fun hy => Nat.le_mul_of_pos_left _ (Nat.pos_of_ne_zero hy)
  have hget : ∀ i < y * row_bytes + x, (load data 0 (y * row_bytes + x)).getD i 0 = data i := by
    intro i hi
    simp [load, hi]
  -- the decoder reads the neighbours in the picture
  have hleft : (if x < channels then 0
      else (load data 0 (y * row_bytes + x)).getD (y * row_bytes + (x - channels)) 0) =
        if x < channels then 0 else data (y * row_bytes + x - channels) := by
    split
    · rfl
    · rw [hget _ (by omega), Nat.add_sub_assoc (by omega)]
  have hup : (if y = 0 then 0
      else (load data 0 (y * row_bytes + x)).getD (y * row_bytes - row_bytes + x) 0) =
        if y = 0 then 0 else data (y * row_bytes + x - row_bytes) := by
    split
    · rfl
    · rename_i hy
      rw [hget _ (by omega), Nat.sub_add_comm (hrow hy)]
  have hcorner : (if y = 0 ∨ x < channels then 0
      else (load data 0 (y * row_bytes + x)).getD (y * row_bytes - row_bytes + (x - channels)) 0) =
        if y = 0 ∨ x < channels then 0 else data (y * row_bytes + x - row_bytes - channels) := by
    split
    · rfl
    · rename_i hin
      have := hrow fun hy => hin (.inl hy)
      rw [hget _ (by omega)]
      congr 1
      omega
  rw [unfilter_byte, Nat.add_assoc _ 1, Nat.add_comm 1, filtered_rows_type, predictor_code]
  simp only [filtered_rows, hdiv, hmod, hleft, hup, hcorner, UInt8.sub_add_cancel]
  rw [← Nat.add_assoc, load_add (k := 1), Nat.zero_add]
  rfl

theorem unfilter_row_restores (hx : x ≤ row_bytes) (hc : 0 < channels) :
    unfilter_row (filtered_rows data types row_bytes channels) row_bytes channels y
      (load data 0 (y * row_bytes)) x = load data 0 (y * row_bytes + x) := by
  induction x with
  | zero => rfl
  | succ x ih => rw [unfilter_row, ih (by omega), unfilter_byte_restores types hx hc]

end

/-- The rows of any picture, each filtered as one likes, come back as they were. -/
theorem unfilter_inverts_filter (data : Memory) (types : Nat → FilterType) (width height : Nat)
    (color_type : UInt8) (hc : channels_of color_type ≠ 0) :
    let channels := channels_of color_type
    let row_bytes := width * channels
    unfilter (filtered_rows data types row_bytes channels) row_bytes channels height =
      some (load data 0 (height * row_bytes)) := by
  intro channels row_bytes
  induction height with
  | zero => rw [unfilter, Nat.zero_mul, load_zero]
  | succ y ih =>
    rw [unfilter, ih, Option.bind_eq_bind, Option.bind_some, filtered_rows_type, if_neg (code_le _),
      unfilter_row_restores types le_rfl (Nat.pos_of_ne_zero hc), Nat.succ_mul]

/-- Two rows of two pixels with three channels: the second row is read against the first. -/
theorem unfilter_two_rows : unfilter
    (filtered_rows (fun i => UInt8.ofNat (i * 20)) (fun _ => .paeth) 6 3) 6 3 2 =
      some [0, 20, 40, 60, 80, 100, 120, 140, 160, 180, 200, 220] :=
  unfilter_inverts_filter (fun i => UInt8.ofNat (i * 20)) (fun _ => .paeth) 2 2 2 (by decide)

end mini_kernel.image
