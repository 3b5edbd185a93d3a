import Mathlib.Algebra.Order.Field.Power
import SceneExchange.Proofs.Channels
import SceneExchange.Proofs.Inverse
import SceneExchange.Proofs.MeshFile
import SceneExchange.Proofs.Refinement

/-!
# Coordinates of meshes that are written and read

In exact arithmetic, where every number that is kept is a single, reading undoes the change of axes
and units of the positions. Texture coordinates do not return: writing subtracts the second one from
one and reading negates it, so every corner comes back one too low.
-/

open List Nat

namespace SceneExchange.Number

section Values

variable (K : Type) [Field K]

/-- The value that is stood for; what is not finite counts as zero. -/
def Exact.value : Exact → K
  | .finite negative m e => (if negative then -1 else 1) * (m * (2 : K) ^ e)
  | _ => 0

def doubleValue (w : UInt64) : K := (decodeBits w.toNat).value K

def Single.magnitude (s : Single) : K :=
  if s.exponent = 0 then s.fraction * (2 : K) ^ (-149 : Int)
  else (s.fraction + 2 ^ 23 : Nat) * (2 : K) ^ ((s.exponent : Int) - 150)

def Single.value (s : Single) : K := (if s.sign = 1 then -1 else 1) * s.magnitude K

end Values

theorem xor_top {x n : Nat} (h : x < 2 * 2 ^ n) : (x ^^^ 2 ^ n) / 2 ^ n = 1 - x / 2 ^ n ∧
    (x ^^^ 2 ^ n) % 2 ^ n = x % 2 ^ n := by
  have hTop : x / 2 ^ n < 2 := Nat.div_lt_of_lt_mul (Nat.mul_comm 2 _ ▸ h)
  rw [Nat.xor_div_two_pow, Nat.xor_mod_two_pow, Nat.div_self (Nat.two_pow_pos n), Nat.mod_self, Nat.xor_zero]
  interval_cases x / 2 ^ n <;> simp

variable {K : Type} [Field K]

theorem doubleValue_xor (w : UInt64) : doubleValue K (w ^^^ 0x8000000000000000) = -doubleValue K w := by
  have hLt : w.toNat < 2 * 2 ^ 63 := w.toNat_lt
  obtain ⟨hTop, hRest⟩ := xor_top hLt
  unfold doubleValue
  rw [UInt64.toNat_xor, show (0x8000000000000000 : UInt64).toNat = 2 ^ 63 from rfl]
  generalize w.toNat ^^^ 2 ^ 63 = y at hTop hRest
  unfold decodeBits
  simp only [show twoPow 63 = 2 ^ 63 from rfl, show twoPow 52 = 2 ^ 52 from rfl, show twoPow 11 = 2 ^ 11 from rfl]
  have hBiased : y / 2 ^ 52 % 2 ^ 11 = w.toNat / 2 ^ 52 % 2 ^ 11 := by omega
  have hFraction : y % 2 ^ 52 = w.toNat % 2 ^ 52 := by omega
  have hSign : (y / 2 ^ 63 % 2 == 1) = !(w.toNat / 2 ^ 63 % 2 == 1) := by
    rw [hTop, Bool.eq_not, ne_eq, beq_eq_beq]
    omega
  rw [hBiased, hFraction, hSign]
  split
  · split <;> simp [Exact.value]
  · split <;> cases (w.toNat / 2 ^ 63 % 2 == 1) <;> simp [Exact.value]

namespace Single

variable {s : Single}

def IsFinite (s : Single) : Prop := s.exponent ≠ 255

theorem IsFinite.isNaN (h : s.IsFinite) : s.isNaN = false := by
  rw [Single.isNaN, beq_eq_false_iff_ne.mpr h, Bool.false_and]

theorem isFinite_and_value_negate (h : s.IsFinite) : s.negate.IsFinite ∧ s.negate.value K = -s.value K := by
  have hLt : s.bits.toNat < 2 * 2 ^ 31 := s.bits.toNat_lt
  obtain ⟨hTop, hRest⟩ := xor_top hLt
  have hBits : s.negate.bits.toNat = s.bits.toNat ^^^ 2 ^ 31 := by
    rw [negate, h.isNaN, if_neg Bool.false_ne_true, UInt32.toNat_xor]
    rfl
  rw [← hBits] at hTop hRest
  have hExponent : s.negate.exponent = s.exponent := by
    change s.negate.bits.toNat / 2 ^ 23 % 2 ^ 8 = s.bits.toNat / 2 ^ 23 % 2 ^ 8
    omega
  have hFraction : s.negate.fraction = s.fraction := by
    change s.negate.bits.toNat % 2 ^ 23 = s.bits.toNat % 2 ^ 23
    omega
  have hSign : s.negate.sign = 1 ↔ ¬s.sign = 1 := by
    change s.negate.bits.toNat / 2 ^ 31 = 1 ↔ ¬s.bits.toNat / 2 ^ 31 = 1
    omega
  refine ⟨hExponent.trans_ne h, ?_⟩
  rw [value, value, magnitude, hExponent, hFraction, ← magnitude]
  by_cases hNegative : s.sign = 1 <;> simp [hSign, hNegative]

theorem doubleValue_compose {bits sign biased fraction : Nat}
    (hBits : bits = sign * 2 ^ 63 + biased * 2 ^ 52 + fraction) (hSign : sign < 2) (hBiased : biased < 2047)
    (hFraction : fraction < 2 ^ 52) : doubleValue K bits.toUInt64 =
      (if sign = 1 then -1 else 1) * if biased = 0 then fraction * (2 : K) ^ (-1074 : Int)
        else (fraction + 2 ^ 52 : Nat) * (2 : K) ^ ((biased : Int) - 1075) := by
  have hNat : bits.toUInt64.toNat = bits := by
    rw [Nat.toUInt64, UInt64.toNat_ofNat', mod_eq_of_lt (by omega)]
  rw [doubleValue, hNat, decodeBits]
  simp only [show twoPow 63 = 2 ^ 63 from rfl, show twoPow 52 = 2 ^ 52 from rfl, show twoPow 11 = 2 ^ 11 from rfl]
  have hTop : bits / 2 ^ 63 % 2 = sign := by omega
  have hMiddle : bits / 2 ^ 52 % 2 ^ 11 = biased := by omega
  have hRest : bits % 2 ^ 52 = fraction := by omega
  rw [hTop, hMiddle, hRest, if_neg (by omega)]
  split <;> simp [Exact.value]

variable [LinearOrder K] [IsStrictOrderedRing K]

theorem mul_pow_mul_zpow (m k : Nat) (e : Int) : (m * 2 ^ k : Nat) * (2 : K) ^ e = m * (2 : K) ^ (e + k) := by
  rw [zpow_add₀ two_ne_zero, zpow_natCast, cast_mul, cast_pow, cast_ofNat]
  ring

theorem doubleValue_widen (h : s.IsFinite) : doubleValue K s.widen = s.value K := by
  have hSign : s.sign < 2 := Nat.div_lt_of_lt_mul s.bits.toNat_lt
  have hExponent : s.exponent < 2 ^ 8 := Nat.mod_lt _ (Nat.two_pow_pos 8)
  have hFraction : s.fraction < 2 ^ 23 := Nat.mod_lt _ (Nat.two_pow_pos 23)
  have hFinite : s.exponent ≠ 255 := h
  unfold widen widenBits
  simp only [show ∀ n, twoPow n = 2 ^ n from fun _ => rfl, if_neg hFinite]
  rw [value, magnitude]
  split
  case isTrue hZero =>
    split
    case isTrue hNone =>
      rw [doubleValue_compose (show _ = s.sign * 2 ^ 63 + 0 * 2 ^ 52 + 0 by omega) hSign (by omega) (by omega), hNone]
      simp
    case isFalse hSome =>
      have hTop : s.fraction.log2 < 23 := (log2_lt hSome).mpr hFraction
      obtain ⟨hLow, hHigh⟩ := (log2_eq_iff hSome).mp rfl
      generalize s.fraction.log2 = top at hTop hLow hHigh
      have hUnit : 2 ^ top * 2 ^ (52 - top) = 2 ^ 52 := by rw [← Nat.pow_add, Nat.add_sub_cancel' (by omega)]
      have hWhole : (s.fraction - 2 ^ top) * 2 ^ (52 - top) + 2 ^ 52 = s.fraction * 2 ^ (52 - top) := by
        rw [← hUnit, ← Nat.add_mul, Nat.sub_add_cancel hLow]
      have hLt : s.fraction * 2 ^ (52 - top) < 2 ^ 53 := by
        calc s.fraction * 2 ^ (52 - top) < 2 ^ (top + 1) * 2 ^ (52 - top) := by gcongr
          _ = 2 ^ 53 := by rw [← Nat.pow_add]; congr 1; omega
      have hScale : ((top + 874 : Nat) : Int) - 1075 + (52 - top : Nat) = -149 := by omega
      rw [doubleValue_compose rfl hSign (by omega) (by omega), if_neg (succ_ne_zero _ : ¬top + 874 = 0), hWhole,
        mul_pow_mul_zpow, hScale]
  case isFalse hNormal =>
    have hWhole : s.fraction * 2 ^ 29 + 2 ^ 52 = (s.fraction + 2 ^ 23) * 2 ^ 29 := by omega
    have hScale : ((s.exponent + 896 : Nat) : Int) - 1075 + (29 : Nat) = s.exponent - 150 := by omega
    rw [doubleValue_compose rfl hSign (by omega) (by omega), if_neg (succ_ne_zero _ : ¬s.exponent + 896 = 0), hWhole,
      mul_pow_mul_zpow, hScale]

theorem doubleValue_widenNegated (h : s.IsFinite) : doubleValue K s.widenNegated = -s.value K := by
  rw [widenNegated, h.isNaN, if_neg Bool.false_ne_true, doubleValue_xor, doubleValue_widen h]

end Single

variable (K) in
def IsSingle (x : K) : Prop := ∃ s : Single, s.IsFinite ∧ s.value K = x

theorem isSingle_of_bits {b : UInt32} {e n : Nat} (hSign : Single.sign ⟨b⟩ = 0) (hExponent : Single.exponent ⟨b⟩ = e + 1)
    (hFraction : Single.fraction ⟨b⟩ = n) (hFinite : e ≠ 254) :
    IsSingle K ((n + 2 ^ 23 : Nat) * (2 : K) ^ ((e : Int) - 149)) := by
  refine ⟨⟨b⟩, by rw [Single.IsFinite, hExponent]; omega, ?_⟩
  have hScale : ((e + 1 : Nat) : Int) - 150 = e - 149 := by omega
  rw [Single.value, Single.magnitude, hSign, hExponent, hFraction, if_neg (succ_ne_zero e), hScale,
    if_neg zero_ne_one, one_mul]

theorem IsSingle.neg {x : K} (h : IsSingle K x) : IsSingle K (-x) := by
  obtain ⟨s, hFinite, rfl⟩ := h
  exact ⟨s.negate, Single.isFinite_and_value_negate hFinite⟩

end SceneExchange.Number

namespace SceneExchange.Mesh

open Number SceneExchange.Geometry Stored

variable {K : Type} [Field K] [LinearOrder K]

open Classical in
/-- Exact numbers, kept in the singles that have their value. -/
noncomputable instance exactStored : Stored K where
  store x := if h : IsSingle K x then h.choose else default
  load s := s.value K
  rounded x := x

theorem store_spec {x : K} (h : IsSingle K x) : (store x).IsFinite ∧ (store x).value K = x := by
  have hStore : store x = h.choose := dif_pos h
  rw [hStore]
  exact h.choose_spec

/-- The positions that importing makes of the positions that exporting makes of coordinates. -/
def returnedPoints (α : Type) [Stored α] (xs : List α) : List Single :=
  Import.editorCoordinates α ((writtenPoints xs).flatMap fun t => [t.x, t.y, t.z])

/-- The doubles that importing makes of the texture coordinates that exporting makes of a layer. -/
def returnedLayer {α : Type} [Stored α] (xs : List α) : List UInt64 := readUvs (writtenLayer xs)

theorem transformPoint_eq (x y z : K) :
    transformPoint engineAxes (x, y, z) = ⟨store (100 * x), store (100 * -y), store (100 * z)⟩ := by
  simp [transformPoint, engineAxes, Geometry.Matrix.diagonal, ratio_eq]

variable [IsStrictOrderedRing K]

theorem inMetres_spec {x : K} (hx : IsSingle K x) (hScaled : IsSingle K (100 * x)) :
    (Import.inMetres K (store (100 * x))).IsFinite ∧ (Import.inMetres K (store (100 * x))).value K = x := by
  obtain ⟨hFinite, hValue⟩ := store_spec hScaled
  have hMetres : load (store (100 * x)) * rounded (Scalar.ratio 1 100 : K) = x := by
    change (store (100 * x)).value K * (((1 : Int) : K) / ((100 : Nat) : K)) = x
    rw [hValue]
    push_cast
    ring
  rw [Import.inMetres, hFinite.isNaN, if_neg Bool.false_ne_true, hMetres]
  exact store_spec hx

theorem map_value_returnedPoints : ∀ {xs : List K}, 3 ∣ xs.length → (∀ x ∈ xs, IsSingle K x ∧ IsSingle K (100 * x)) →
    (returnedPoints K xs).map (Single.value K) = xs
  | [], _, _ => rfl
  | [_], h, _ => absurd h (by simp)
  | [_, _], h, _ => absurd h (by simp)
  | x :: y :: z :: rest, h, hSingle => by
    simp only [forall_mem_cons] at hSingle
    obtain ⟨⟨hx, hx'⟩, ⟨hy, hy'⟩, ⟨hz, hz'⟩, hRest⟩ := hSingle
    have hFirst := inMetres_spec hx hx'
    have hThird := inMetres_spec hz hz'
    have hSecond := inMetres_spec hy.neg (mul_neg (100 : K) y ▸ hy'.neg)
    have hLength : 3 ∣ rest.length := (Nat.dvd_add_iff_left (Nat.dvd_refl 3)).mpr h
    have hStep : returnedPoints K (x :: y :: z :: rest) = Import.inMetres K (transformPoint engineAxes (x, y, z)).x ::
          (Import.inMetres K (transformPoint engineAxes (x, y, z)).y).negate ::
            Import.inMetres K (transformPoint engineAxes (x, y, z)).z :: returnedPoints K rest := rfl
    rw [hStep, transformPoint_eq, map_cons, map_cons, map_cons, hFirst.2, hThird.2,
      (Single.isFinite_and_value_negate hSecond.1).2, hSecond.2, neg_neg, map_value_returnedPoints hLength hRest]

/-- The texture coordinates with the second one of each pair one lower. -/
def lowered : List K → List K
  | u :: v :: rest => u :: (v - 1) :: lowered rest
  | xs => xs

theorem lowered_eq_self_iff {xs : List K} (h : 2 ∣ xs.length) : lowered xs = xs ↔ xs = [] := by
  match xs with
  | [] => exact iff_of_true rfl rfl
  | [_] => exact absurd h (by simp)
  | u :: v :: rest => simp [lowered]

theorem map_value_returnedLayer : ∀ {xs : List K}, 2 ∣ xs.length → (∀ x ∈ xs, IsSingle K x ∧ IsSingle K (1 - x)) →
    (returnedLayer xs).map (doubleValue K) = lowered xs
  | [], _, _ => rfl
  | [_], h, _ => absurd h (by simp)
  | u :: v :: rest, h, hSingle => by
    simp only [forall_mem_cons] at hSingle
    obtain ⟨⟨hu, -⟩, ⟨-, hv⟩, hRest⟩ := hSingle
    have hFirst := store_spec hu
    have hSecond := store_spec hv
    have hLength : 2 ∣ rest.length := (Nat.dvd_add_iff_left (Nat.dvd_refl 2)).mpr h
    have hStep : returnedLayer (u :: v :: rest) =
        (store u).widen :: (store (Scalar.one - v)).widenNegated :: returnedLayer rest := rfl
    rw [hStep, one_eq, map_cons, map_cons, Single.doubleValue_widen hFirst.1, hFirst.2,
      Single.doubleValue_widenNegated hSecond.1, hSecond.2, neg_sub, map_value_returnedLayer hLength hRest, lowered]

/-! ## Through the file -/

variable {g : Shape} {raw : Raw}

theorem length_toTriples {α : Type} (xs : List α) : (toTriples xs).length = xs.length / 3 := by
  fun_induction toTriples xs with
  | case1 x y z rest ih =>
    simp only [length_cons, ih]
    omega
  | case2 xs hShort =>
    match xs with
    | [] | [_] | [_, _] => simp
    | x :: y :: z :: rest => exact (hShort x y z rest rfl).elim

theorem fitting_of_ofShape (h : Raw.ofShape g = .ok raw) : raw.Fitting := by
  obtain ⟨-, hCorners, hSlots, hNormals, colors, rfl⟩ := exists_of_ofShape h
  refine ⟨?_, ?_, ?_⟩
  · simp [hSlots]
  · simp [length_toTriples, hNormals, hCorners]
  · simp [orderedLayers, Shape.writtenLayers]

theorem orderedLayers_eq_self {layers : List UvLayer} (h : activeLayer layers = 0) : orderedLayers layers = layers := by
  refine ext_getElem? fun j => ?_
  by_cases hj : j < layers.length
  · have hChannel : channel layers j = j := by
      unfold channel
      split_ifs <;> omega
    rw [List.getElem?_eq_getElem hj, ← orderedLayers_channel (List.getElem?_eq_getElem hj), hChannel]
  · rw [List.getElem?_eq_none (by simpa [orderedLayers] using hj), List.getElem?_eq_none (Nat.le_of_not_lt hj)]

theorem triangleSlots_of_ofShape (h : Raw.ofShape g = .ok raw) (m : Import.StaticMesh) :
    ∃ slots, Import.triangleSlots m raw.materials (raw.indices.length / 3) = .ok slots := by
  obtain ⟨-, hCorners, hSlots, -, colors, rfl⟩ := exists_of_ofShape h
  refine ⟨_, if_neg ?_⟩
  simp only [length_map, hSlots, Shape.triangles]
  omega

theorem makeMesh_of_ofShape (hRaw : Raw.ofShape g = .ok raw) (hActive : activeLayer g.writtenLayers = 0)
    {m : Import.StaticMesh} (hLoaded : m.loaded = raw.loaded) (p : Import.Place) (s : Import.State) :
    ∃ t mesh, Import.Importing.result (Import.Importing.makeMesh m) p s = (.ok s.stage.meshes.size, t) ∧
      t.stage.meshes = s.stage.meshes.push mesh ∧ mesh.coordinates = some (returnedPoints Float g.coordinates) ∧
      mesh.uvs = (g.writtenLayers.map fun l => returnedLayer l.coordinates).filter (!·.isEmpty) := by
  obtain ⟨slots, hSlots⟩ := triangleSlots_of_ofShape hRaw m
  have hFollows := Import.Importing.follows_makeMesh (p := p) m s.marks s rfl
  unfold Import.Recursive.placeMesh Import.Recursive.mesh? at hFollows
  rw [hLoaded] at hFollows
  simp only [Raw.loaded, Option.getD_some, hSlots] at hFollows
  obtain ⟨log, hRun⟩ := hFollows
  refine ⟨_, _, hRun, rfl, ?_, ?_⟩
  · obtain ⟨-, -, -, -, colors, rfl⟩ := exists_of_ofShape hRaw
    rfl
  · have hEmpty (n : Nat) : (List.replicate n ([] : List UInt64)).filter (!·.isEmpty) = [] := by simp
    dsimp only
    rw [filter_append, hEmpty, append_nil, uvs_of_ofShape hRaw, orderedLayers_eq_self hActive, map_map]
    rfl

/-- A mesh whose first layer is active is written, read and made again. The mesh has the positions and
the texture coordinates that return, and in exact arithmetic the positions are the ones it had, while
every second texture coordinate is one too low: only a layer without corners returns as it was. -/
theorem coordinates_return (hRaw : Raw.ofShape g = .ok raw) (hActive : activeLayer g.writtenLayers = 0) (name : String)
    (hSize : (file name raw).length < 2 ^ 32) :
    (∃ loaded, read (file name raw) = (.ok (), loaded) ∧ ∀ m : Import.StaticMesh, m.loaded = loaded → ∀ p s,
      ∃ t mesh, Import.Importing.result (Import.Importing.makeMesh m) p s = (.ok s.stage.meshes.size, t) ∧
        t.stage.meshes = s.stage.meshes.push mesh ∧ mesh.coordinates = some (returnedPoints Float g.coordinates) ∧
        mesh.uvs = (g.writtenLayers.map fun l => returnedLayer l.coordinates).filter (!·.isEmpty)) ∧
    (∀ xs : List K, 3 ∣ xs.length → (∀ x ∈ xs, IsSingle K x ∧ IsSingle K (100 * x)) →
      (returnedPoints K xs).map (Single.value K) = xs) ∧
    ∀ xs : List K, 2 ∣ xs.length → (∀ x ∈ xs, IsSingle K x ∧ IsSingle K (1 - x)) →
      (returnedLayer xs).map (doubleValue K) = lowered xs ∧ (lowered xs = xs ↔ xs = []) := by
  have hRead := (Reads.file (fitting_of_ofShape hRaw) hSize).read_eq
  exact ⟨⟨raw.loaded, hRead, fun m hLoaded p s => makeMesh_of_ofShape hRaw hActive hLoaded p s⟩,
    fun xs hLength hSingle => map_value_returnedPoints hLength hSingle,
    fun xs hLength hSingle => ⟨map_value_returnedLayer hLength hSingle, lowered_eq_self_iff hLength⟩⟩

theorem isSingle_quarters : IsSingle ℚ (1 / 4) ∧ IsSingle ℚ (3 / 4) ∧ IsSingle ℚ 25 := by
  refine ⟨?_, ?_, ?_⟩
  · convert isSingle_of_bits (b := 0x3E800000) (n := 0) rfl rfl rfl (by decide) using 1
    norm_num
  · convert isSingle_of_bits (b := 0x3F400000) (n := 0x400000) rfl rfl rfl (by decide) using 1
    norm_num
  · convert isSingle_of_bits (b := 0x41C80000) (n := 0x480000) rfl rfl rfl (by decide) using 1
    norm_num

/-- A triangle with two layers returns, but a corner in the upper left quarter of a layer leaves it. -/
theorem coordinates_return_sail : (∃ raw, Raw.ofShape Material.twoLayers = .ok raw ∧ ∃ loaded,
      read (file "Sail" raw) = (.ok (), loaded)) ∧
    (returnedPoints ℚ [1 / 4, 1 / 4, 1 / 4]).map (Single.value ℚ) = [1 / 4, 1 / 4, 1 / 4] ∧
    (returnedLayer [(1 / 4 : ℚ), 3 / 4]).map (doubleValue ℚ) = [1 / 4, -1 / 4] := by
  obtain ⟨hQuarter, hThree, hScaled⟩ := isSingle_quarters
  obtain ⟨⟨loaded, hRead, -⟩, hPoints, hLayer⟩ := coordinates_return (K := ℚ) (g := Material.twoLayers) rfl
    (by decide) "Sail"
    (by decide +kernel)
  refine ⟨⟨_, rfl, loaded, hRead⟩, hPoints _ (by simp) ?_, ?_⟩
  · norm_num [hQuarter, hScaled]
  · rw [(hLayer _ (by simp) _).1]
    · norm_num [lowered]
    · norm_num [hQuarter, hThree]

end SceneExchange.Mesh
