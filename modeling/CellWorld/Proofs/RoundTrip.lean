import CellWorld.Wire.Settings
import CellWorld.Proofs.Documents

/-!
# Records that read back

Every record that nodes exchange, and the settings, come back from their text as they were:
`Tree.readText? ofTree? v.toJson.render = some v`. For each record there is a lemma `ofTree?_tree`
about the tree that it is written as, and `ofText?_render` does the rest.

* `Tree.readText? read text` — a record read from a text
* `float?_tree`, `uint64?_tree`, `nullable?_ofOption`, … — plain values:
  `read (write v).tree = some v`
* `slots?_tree` — an object that is written with all fields of a record is read with all of them
* `Time.Written`, `Point.Finite`, `Payload.Finite`, `Settings.Finite` — the values that a document
  can hold
* `Payload.ofTree?_tree`, `Grant.ofTree?_tree`, … — records
* `documents_read_back` — payload, request, reply, grant, transfer record, node and settings
* `awkward_documents_read_back` — values with what is easily lost

Numbers have to be finite and times in whole milliseconds from 1970 on, in 64 bits: others are
written as null, or cut. What a reader makes of documents written by others is not covered here.
-/

namespace CellWorld

/-! ### Plain values -/

section Plain

theorem bool?_tree (b : Bool) : (Json.bool b).tree.bool? = some b := rfl

theorem text?_tree (s : String) : (Json.str s).tree.text? = some s := rfl

theorem float?_tree {x : Float} (finite : Scalar.isFinite x = true) :
    (Json.ofFloat x).tree.float? = some x := by
  obtain ⟨l, read, value⟩ := Number.parse?_text Json.numberStyle finite
  rw [Json.ofFloat, if_pos finite, Json.tree, Reader.bareTree?_of_parse? read]
  simp [Tree.float?, value, finite]

/-- A double that is not finite is written as null, so every `ofFloat` can be rendered. -/
theorem finite_ofFloat (x : Float) : (Json.ofFloat x).finite = true := by
  unfold Json.ofFloat
  split
  · next finite => exact finite
  · rfl

theorem finite_nat (n : Nat) : (Json.nat n).finite = true := rfl

theorem toInt?_written (n : Int) :
    Number.Literal.toInt? ⟨decide (n < 0), n.natAbs, 0, true⟩ = some n := by
  by_cases neg : n < 0
  · have nonzero : n ≠ 0 := by omega
    simp [Number.Literal.toInt?, neg, nonzero, abs_of_neg]
  · simp [Number.Literal.toInt?, neg, abs_of_nonneg (not_lt.mp neg)]

theorem intIn?_tree {low high n : Int} (lower : low ≤ n) (upper : n < high) :
    (Json.int n).tree.intIn? low high = some n := by
  simp [Json.tree, Tree.intIn?, toInt?_written, lower, upper]

theorem uint16?_tree (n : UInt16) : (Json.nat n.toNat).tree.uint16? = some n := by
  have bound := n.toNat_lt
  rw [Tree.uint16?, Json.nat, intIn?_tree (by omega) (by omega)]
  simp

theorem uint32?_tree (n : UInt32) : (Json.nat n.toNat).tree.uint32? = some n := by
  have bound := n.toNat_lt
  rw [Tree.uint32?, Json.nat, intIn?_tree (by omega) (by omega)]
  simp

theorem uint64?_tree (n : UInt64) : (Json.nat n.toNat).tree.uint64? = some n := by
  have bound := n.toNat_lt
  rw [Tree.uint64?, Json.nat, intIn?_tree (by omega) (by omega)]
  simp

theorem int32?_tree (n : Int32) : (Json.int n.toInt).tree.int32? = some n := by
  have lower := n.le_toInt
  have upper := n.toInt_lt
  rw [Tree.int32?, intIn?_tree (by omega) (by omega), Option.map_some, Int32.ofInt_toInt]

theorem int64?_tree (n : Int64) : (Json.int n.toInt).tree.int64? = some n := by
  have lower := n.le_toInt
  have upper := n.toInt_lt
  rw [Tree.int64?, intIn?_tree (by omega) (by omega), Option.map_some, Int64.ofInt_toInt]

variable {β : Type} {write : β → Json} {read : Tree → Option β}

/-- An optional value reads back, if no present value is written as null. -/
theorem nullable?_ofOption (same : ∀ v, read (write v).tree = some v)
    (present : ∀ v, (write v).tree ≠ .null) (o : Option β) :
    (Json.ofOption write o).tree.nullable? read = some o := by
  cases o with
  | none => rfl
  | some v =>
    unfold Json.ofOption Tree.nullable?
    split
    · next null => exact absurd null (present v)
    · rw [same v]
      rfl

theorem finite_ofOption (finite : ∀ v, (write v).finite = true) (o : Option β) :
    (Json.ofOption write o).finite = true := by
  cases o with
  | none => rfl
  | some v => exact finite v

end Plain

/-! ### Fields -/

section Fields

variable {key : Option String} {t : Tree} {fields : List (Option String × Tree)}

/-- A key that stands once in an object is found with its value. -/
theorem ofFields?_of_mem (distinct : (fields.map Prod.fst).Nodup) (h : (key, t) ∈ fields) :
    Slot.ofFields? fields key = some (.given t) := by
  have only : fields.filter (fun f => f.1 == key) = [(key, t)] := by
    induction fields with
    | nil => exact absurd h List.not_mem_nil
    | cons field fields ih =>
      obtain ⟨fresh, distinct⟩ := List.nodup_cons.mp distinct
      rcases List.mem_cons.mp h with rfl | later
      · have none : fields.filter (fun f => f.1 == key) = [] := by
          rw [List.filter_eq_nil_iff]
          intro f hf same
          exact fresh (List.mem_map.mpr ⟨f, hf, beq_iff_eq.mp same⟩)
        rw [List.filter_cons, if_pos (beq_self_eq_true key), none]
      · have other : ¬ (field.1 == key) = true := by
          intro same
          exact fresh (List.mem_map.mpr ⟨(key, t), later, (beq_iff_eq.mp same).symm⟩)
        rw [List.filter_cons, if_neg other, ih distinct later]
  rw [Slot.ofFields?, only]

theorem fieldTrees_eq_map (fields : List (String × Json)) :
    Json.fieldTrees fields = fields.map fun f => (some f.1, f.2.tree) := by
  induction fields with
  | nil => rfl
  | cons field fields ih => rw [Json.fieldTrees, ih, List.map_cons]

/-- Slots found one by one are found by `mapM`. -/
theorem mapM_ofFields? {names : List String} {values : List Json}
    (complete : names.length = values.length)
    (given : ∀ f ∈ names.zip values,
      Slot.ofFields? fields (some f.1) = some (.given f.2.tree)) :
    names.mapM (fun n => Slot.ofFields? fields (some n)) =
      some (values.map fun j => .given j.tree) := by
  induction names generalizing values with
  | nil =>
    rw [List.length_eq_zero_iff.mp complete.symm]
    rfl
  | cons name names ih =>
    cases values with
    | nil => exact absurd complete (Nat.succ_ne_zero _)
    | cons value values =>
      rw [List.mapM_cons, given (name, value) List.mem_cons_self,
        ih (Nat.succ.inj complete) fun f hf => given f (List.mem_cons_of_mem _ hf)]
      rfl

/-- A record written with all its fields, under distinct names, fills all its slots. -/
theorem slots?_tree {j : Json} (names : List String) (values : List Json)
    (written : j = .obj (names.zip values)) (distinct : names.Nodup)
    (complete : names.length = values.length) :
    j.tree.slots? names = some (values.map fun j => .given j.tree) := by
  have fields := fieldTrees_eq_map (names.zip values)
  have keys : ((Json.fieldTrees (names.zip values)).map Prod.fst) = names.map some := by
    rw [fields, List.map_map]
    show List.map (some ∘ Prod.fst) _ = _
    rw [← List.map_map, List.map_fst_zip (Nat.le_of_eq complete)]
  have valid : (Json.fieldTrees (names.zip values)).all (fun f => f.1.isSome) = true := by
    rw [fields]
    simp
  rw [written, Json.tree, Tree.slots?, if_pos valid]
  refine mapM_ofFields? complete fun f hf => ofFields?_of_mem ?_ ?_
  · rw [keys]
    exact List.Nodup.map (Option.some_injective String) distinct
  · rw [fields]
    exact List.mem_map_of_mem hf

end Fields

theorem bind_eq_some {β γ : Type} {o : Option β} {f : β → Option γ} {b : β} {c : γ}
    (ho : o = some b) (hf : f b = some c) : o >>= f = some c := by
  rw [ho]
  exact hf

namespace Slot

variable {δ β : Type} {read : δ → Option β} {d : δ} {v : β}

theorem required_given (h : read d = some v) : (given d).required read = some v := h

theorem defaulted_given (h : read d = some v) (fallback : β) :
    (given d).defaulted read fallback = some v := h

theorem optional_given {read : δ → Option (Option β)} {v : Option β} (h : read d = some v) :
    (given d).optional read = some v := h

end Slot

/-! ### Texts -/

def Tree.readText? {β : Type} (read : Tree → Option β) (text : String) : Option β :=
  (ofText? text).bind read

/-- Rendering and reading a finite value whose tree reads back gives it back. -/
theorem readText?_render {β : Type} {read : Tree → Option β} {j : Json} {v : β}
    (finite : j.finite = true) (same : read j.tree = some v) :
    Tree.readText? read j.render = some v := by
  rw [Tree.readText?, Reader.ofText?_render finite, Option.bind_some, same]

/-! ### Parts of records -/

/-- All coordinates are finite, so a document can hold the point. -/
structure Point.Finite (p : Point Float) : Prop where
  x : Scalar.isFinite p.x = true
  y : Scalar.isFinite p.y = true
  z : Scalar.isFinite p.z = true

theorem Point.point?_tree {p : Point Float} (h : p.Finite) : p.toJson.tree.point? = some p := by
  simp [toJson, Json.tree, Json.itemTrees, Tree.point?, float?_tree h.x, float?_tree h.y,
    float?_tree h.z]

/-- A cell reads back from its tree. -/
theorem Cell.ofTree?_tree (c : Cell) : ofTree? c.toJson.tree = some c := by
  have slots : c.toJson.tree.slots? _ = _ :=
    slots?_tree ["cx", "cz"] [.int c.cx.toInt, .int c.cz.toInt] rfl (by decide) rfl
  exact bind_eq_some slots <|
    bind_eq_some (Slot.required_given (int32?_tree c.cx)) <|
    bind_eq_some (Slot.required_given (int32?_tree c.cz)) rfl

theorem Cell.finite_toJson (c : Cell) : c.toJson.finite = true := rfl

theorem TransferStatus.ofTree?_tree (s : TransferStatus) : ofTree? s.toJson.tree = some s :=
  lookup_text s

theorem FollowMode.ofTree?_tree (m : FollowMode) : ofTree? m.toJson.tree = some m :=
  lookup_text m

namespace Time

/-- The instants that survive being written: whole milliseconds from 1970 on, in 64 bits. -/
structure Written (t : Time) : Prop where
  fromStart : 0 ≤ t.nanos
  whole : t.nanos % 1000000 = 0
  short : t.nanos / 1000000 < 2 ^ 64

theorem ofMillis_millis {t : Time} (h : t.Written) : ofMillis t.millis = t := by
  obtain ⟨nanos⟩ := t
  obtain ⟨fromStart, whole, short⟩ := h
  have bound : nanos.toNat / 1000000 < 2 ^ 64 := by
    dsimp only at *
    omega
  have value : (nanos.toNat / 1000000 : Nat) * 1000000 = nanos := by
    dsimp only at *
    omega
  rw [millis, ofMillis, UInt64.toNat_ofNat_of_lt' bound, value]

/-- Of every instant, a document holds `millis`. -/
theorem ofTree?_tree (t : Time) : ofTree? t.toJson.tree = some (ofMillis t.millis) := by
  rw [ofTree?, toJson, uint64?_tree]
  rfl

theorem ofTree?_tree_of_written {t : Time} (h : t.Written) : ofTree? t.toJson.tree = some t := by
  rw [ofTree?_tree, ofMillis_millis h]

end Time

/-! ### Records -/

namespace Payload

/-- All numbers of the payload are finite. -/
structure Finite (p : Payload Float) : Prop where
  pos : p.pos.Finite
  vel : p.vel.Finite
  yaw : Scalar.isFinite p.yaw = true

/-- A finite payload reads back from its tree. -/
theorem ofTree?_tree {p : Payload Float} (h : p.Finite) : ofTree? p.toJson.tree = some p := by
  have slots : p.toJson.tree.slots? _ = _ := slots?_tree
    ["id", "name", "pos", "vel", "yaw", "owned_cell", "prev_cell", "last_seq"]
    [.str p.id, .str p.name, p.pos.toJson, p.vel.toJson, .ofFloat p.yaw, p.ownedCell.toJson,
      .ofOption Cell.toJson p.prevCell, .nat p.lastSeq.toNat] rfl (by decide) rfl
  have prevCell := nullable?_ofOption Cell.ofTree?_tree (fun _ => Tree.noConfusion) p.prevCell
  exact bind_eq_some slots <|
    bind_eq_some (Slot.required_given (text?_tree p.id)) <|
    bind_eq_some (Slot.required_given (text?_tree p.name)) <|
    bind_eq_some (Slot.required_given (Point.point?_tree h.pos)) <|
    bind_eq_some (Slot.required_given (Point.point?_tree h.vel)) <|
    bind_eq_some (Slot.required_given (float?_tree h.yaw)) <|
    bind_eq_some (Slot.required_given (Cell.ofTree?_tree p.ownedCell)) <|
    bind_eq_some (Slot.defaulted_given prevCell none) <|
    bind_eq_some (Slot.defaulted_given (uint64?_tree p.lastSeq) 0) rfl

theorem finite_toJson (p : Payload Float) : p.toJson.finite = true := by
  simp [toJson, Point.toJson, Cell.toJson, Json.finite, Json.itemsFinite, Json.fieldsFinite,
    finite_nat, finite_ofFloat, finite_ofOption Cell.finite_toJson]

end Payload

namespace Request

/-- A request reads back with its payload. -/
theorem ofTree?_tree {r : Request Float} (h : r.payload.Finite) :
    ofTree? r.toJson.tree = some r := by
  have slots : r.toJson.tree.slots? _ = _ :=
    slots?_tree ["token", "player_data"] [.str r.token, r.payload.toJson] rfl (by decide) rfl
  exact bind_eq_some slots <|
    bind_eq_some (Slot.required_given (text?_tree r.token)) <|
    bind_eq_some (Slot.required_given (Payload.ofTree?_tree h)) rfl

theorem finite_toJson (r : Request Float) : r.toJson.finite = true := by
  simp [toJson, Json.finite, Json.fieldsFinite, Payload.finite_toJson]

end Request

namespace Reply

/-- How a text that is left out when empty is found. -/
def textSlot (value : String) : Slot Tree :=
  if value = "" then .noKey else .given (Json.str value).tree

/-- A text that is left out reads back as `""`, the default. -/
theorem defaulted_textSlot (value : String) :
    (textSlot value).defaulted Tree.text? "" = some value := by
  unfold textSlot
  split
  · next empty =>
    rw [empty]
    rfl
  · rfl

/-- A reply reads back, with the texts that are left out. -/
theorem ofTree?_tree (r : Reply) : ofTree? r.toJson.tree = some r := by
  have slots : r.toJson.tree.slots? ["success", "error", "target_ws_url", "resume_token"] =
      some [.given (Json.bool r.success).tree, textSlot r.error, textSlot r.reconnectUrl,
        textSlot r.resumeToken] := by
    unfold toJson textField textSlot
    split_ifs <;> rfl
  exact bind_eq_some slots <|
    bind_eq_some (Slot.required_given (bool?_tree r.success)) <|
    bind_eq_some (defaulted_textSlot r.error) <|
    bind_eq_some (defaulted_textSlot r.reconnectUrl) <|
    bind_eq_some (defaulted_textSlot r.resumeToken) rfl

theorem finite_toJson (r : Reply) : r.toJson.finite = true := by
  unfold toJson textField
  split_ifs <;> rfl

end Reply

namespace Grant

/-- A grant reads back, if both of its times are `Written`. -/
theorem ofTree?_tree {g : Grant Float} (h : g.payload.Finite) (issued : g.issuedAt.Written)
    (expires : g.expiresAt.Written) : ofTree? g.toJson.tree = some g := by
  have slots : g.toJson.tree.slots? _ = _ := slots?_tree
    ["player_id", "from_node", "to_node", "from_cell", "to_cell", "player_data", "issued_at",
      "expires_at"]
    [.str g.player, .str g.origin, .str g.destination, g.fromCell.toJson, g.toCell.toJson,
      g.payload.toJson, g.issuedAt.toJson, g.expiresAt.toJson] rfl (by decide) rfl
  exact bind_eq_some slots <|
    bind_eq_some (Slot.required_given (text?_tree g.player)) <|
    bind_eq_some (Slot.required_given (text?_tree g.origin)) <|
    bind_eq_some (Slot.required_given (text?_tree g.destination)) <|
    bind_eq_some (Slot.required_given (Cell.ofTree?_tree g.fromCell)) <|
    bind_eq_some (Slot.required_given (Cell.ofTree?_tree g.toCell)) <|
    bind_eq_some (Slot.required_given (Payload.ofTree?_tree h)) <|
    bind_eq_some (Slot.required_given (Time.ofTree?_tree_of_written issued)) <|
    bind_eq_some (Slot.required_given (Time.ofTree?_tree_of_written expires)) rfl

theorem finite_toJson (g : Grant Float) : g.toJson.finite = true := by
  simp [toJson, Json.finite, Json.fieldsFinite, Time.toJson, finite_nat, Cell.finite_toJson,
    Payload.finite_toJson]

end Grant

namespace TransferRecord

/-- A transfer record reads back, if its start is `Written`. -/
theorem ofTree?_tree {r : TransferRecord} (started : r.startedAt.Written) :
    ofTree? r.toJson.tree = some r := by
  have slots : r.toJson.tree.slots? _ = _ := slots?_tree
    ["target_node", "from_cell", "to_cell", "status", "initiated_at", "token", "error"]
    [.str r.target, r.fromCell.toJson, r.toCell.toJson, r.status.toJson, r.startedAt.toJson,
      .ofOption .str r.token, .ofOption .str r.error] rfl (by decide) rfl
  have text := nullable?_ofOption text?_tree (fun _ => Tree.noConfusion)
  exact bind_eq_some slots <|
    bind_eq_some (Slot.required_given (text?_tree r.target)) <|
    bind_eq_some (Slot.required_given (Cell.ofTree?_tree r.fromCell)) <|
    bind_eq_some (Slot.required_given (Cell.ofTree?_tree r.toCell)) <|
    bind_eq_some (Slot.required_given (TransferStatus.ofTree?_tree r.status)) <|
    bind_eq_some (Slot.required_given (Time.ofTree?_tree_of_written started)) <|
    bind_eq_some (Slot.optional_given (text r.token)) <|
    bind_eq_some (Slot.optional_given (text r.error)) rfl

theorem finite_toJson (r : TransferRecord) : r.toJson.finite = true := by
  have text := finite_ofOption fun s => (rfl : (Json.str s).finite = true)
  simp [toJson, Json.finite, Json.fieldsFinite, Cell.finite_toJson, TransferStatus.toJson,
    Time.toJson, finite_nat, text]

end TransferRecord

namespace NodeInfo

/-- A node reads back from its tree. -/
theorem ofTree?_tree (n : NodeInfo) : ofTree? n.toJson.tree = some n := by
  have slots : n.toJson.tree.slots? _ = _ := slots?_tree ["id", "address", "port"]
    [.str n.id, .str n.address, .nat n.port.toNat] rfl (by decide) rfl
  exact bind_eq_some slots <|
    bind_eq_some (Slot.required_given (text?_tree n.id)) <|
    bind_eq_some (Slot.required_given (text?_tree n.address)) <|
    bind_eq_some (Slot.required_given (uint16?_tree n.port)) rfl

theorem finite_toJson (n : NodeInfo) : n.toJson.finite = true := rfl

end NodeInfo

namespace Settings

structure Finite (s : Settings Float) : Prop where
  cellSize : Scalar.isFinite s.cellSize = true
  aoiRadius : Scalar.isFinite s.aoiRadius = true
  hysteresis : Scalar.isFinite s.hysteresis = true

/-- Settings with finite numbers read back, whatever their texts and integers. -/
theorem ofTree?_tree {s : Settings Float} (h : s.Finite) : ofTree? s.toJson.tree = some s := by
  have slots : s.toJson.tree.slots? _ = _ := slots?_tree
    ["cell_size", "aoi_radius", "tick_hz", "snapshot_hz", "handover_hysteresis",
      "target_density_per_cell", "max_bots", "node_id", "handover_mode", "seed",
      "debug_snapshot"]
    [.ofFloat s.cellSize, .ofFloat s.aoiRadius, .nat s.tickHz.toNat, .nat s.snapshotHz.toNat,
      .ofFloat s.hysteresis, .nat s.targetDensity.toNat, .int s.maxBots.toInt, .str s.nodeId,
      s.mode.toJson, .ofOption (fun n => .nat n.toNat) s.seed, .bool s.debugSnapshot]
    rfl (by decide) rfl
  have seed := nullable?_ofOption uint64?_tree (fun _ => Tree.noConfusion) s.seed
  exact bind_eq_some slots <|
    bind_eq_some (Slot.defaulted_given (float?_tree h.cellSize) _) <|
    bind_eq_some (Slot.defaulted_given (float?_tree h.aoiRadius) _) <|
    bind_eq_some (Slot.defaulted_given (uint32?_tree s.tickHz) _) <|
    bind_eq_some (Slot.defaulted_given (uint32?_tree s.snapshotHz) _) <|
    bind_eq_some (Slot.defaulted_given (float?_tree h.hysteresis) _) <|
    bind_eq_some (Slot.defaulted_given (uint32?_tree s.targetDensity) _) <|
    bind_eq_some (Slot.defaulted_given (int64?_tree s.maxBots) _) <|
    bind_eq_some (Slot.defaulted_given (text?_tree s.nodeId) _) <|
    bind_eq_some (Slot.defaulted_given (FollowMode.ofTree?_tree s.mode) _) <|
    bind_eq_some (Slot.defaulted_given seed _) <|
    bind_eq_some (Slot.defaulted_given (bool?_tree s.debugSnapshot) _) rfl

theorem finite_toJson (s : Settings Float) : s.toJson.finite = true := by
  have seed := finite_ofOption fun n : UInt64 => finite_nat n.toNat
  simp [toJson, Json.finite, Json.fieldsFinite, finite_nat, finite_ofFloat, FollowMode.toJson, seed]

end Settings

/-- The seven types of documents, each with the numbers and times that a document can hold:
`readText? ofTree? v.toJson.render = some v`. -/
theorem documents_read_back :
    (∀ p : Payload Float, p.Finite →
      Tree.readText? Payload.ofTree? p.toJson.render = some p) ∧
    (∀ r : Request Float, r.payload.Finite →
      Tree.readText? Request.ofTree? r.toJson.render = some r) ∧
    (∀ r : Reply, Tree.readText? Reply.ofTree? r.toJson.render = some r) ∧
    (∀ g : Grant Float, g.payload.Finite → g.issuedAt.Written → g.expiresAt.Written →
      Tree.readText? Grant.ofTree? g.toJson.render = some g) ∧
    (∀ r : TransferRecord, r.startedAt.Written →
      Tree.readText? TransferRecord.ofTree? r.toJson.render = some r) ∧
    (∀ n : NodeInfo, Tree.readText? NodeInfo.ofTree? n.toJson.render = some n) ∧
    (∀ s : Settings Float, s.Finite →
      Tree.readText? Settings.ofTree? s.toJson.render = some s) :=
  ⟨fun p h => readText?_render p.finite_toJson (Payload.ofTree?_tree h),
    fun r h => readText?_render r.finite_toJson (Request.ofTree?_tree h),
    fun r => readText?_render r.finite_toJson r.ofTree?_tree,
    fun g h issued expires =>
      readText?_render g.finite_toJson (Grant.ofTree?_tree h issued expires),
    fun r started => readText?_render r.finite_toJson (TransferRecord.ofTree?_tree started),
    fun n => readText?_render n.finite_toJson n.ofTree?_tree,
    fun s h => readText?_render s.finite_toJson (Settings.ofTree?_tree h)⟩

/-- A payload with what is easily lost: quotes, a backslash, controls and letters beyond ASCII in
its texts, the smallest and the largest double, a negative zero, and whole numbers at the ends of
their ranges. -/
def Payload.awkward : Payload Float where
  id := "p-\"1\"\\"
  name := "Zoë\n\x01\u2028"
  pos := ⟨0.1, -0.0, 5e-324⟩
  vel := ⟨-1.7976931348623157e308, 1e16, 1e-5⟩
  yaw := 3.141592653589793
  ownedCell := ⟨Int32.minValue, Int32.maxValue⟩
  prevCell := some ⟨-1, 0⟩
  lastSeq := 0xFFFFFFFFFFFFFFFF

theorem Payload.finite_awkward : awkward.Finite where
  pos := ⟨by decide +kernel, by decide +kernel, by decide +kernel⟩
  vel := ⟨by decide +kernel, by decide +kernel, by decide +kernel⟩
  yaw := by decide +kernel

/-- Values at the ends of their ranges read back: the first and last instant, the last port, and
settings with a negative cap. -/
theorem awkward_documents_read_back :
    let p := Payload.awkward
    let r : Request Float := ⟨"\t", p⟩
    let a : Reply := { success := false, error := "\x7f", reconnectUrl := "", resumeToken := "/" }
    let start : Time := ⟨0⟩
    let last : Time := ⟨18446744073709551615000000⟩
    let g : Grant Float := ⟨"", "a", "b", ⟨0, 0⟩, ⟨0, -1⟩, p, start, last⟩
    let t : TransferRecord := ⟨"b", ⟨0, 0⟩, ⟨0, -1⟩, .inProgress, last, none, some ""⟩
    let n : NodeInfo := ⟨"🌐", "[::1]", 65535⟩
    let s : Settings Float := { Settings.standard with maxBots := -1, seed := some 0 }
    (p.Finite ∧ Tree.readText? Payload.ofTree? p.toJson.render = some p) ∧
    (r.payload.Finite ∧ Tree.readText? Request.ofTree? r.toJson.render = some r) ∧
    Tree.readText? Reply.ofTree? a.toJson.render = some a ∧
    (g.payload.Finite ∧ g.issuedAt.Written ∧ g.expiresAt.Written ∧
      Tree.readText? Grant.ofTree? g.toJson.render = some g) ∧
    (t.startedAt.Written ∧ Tree.readText? TransferRecord.ofTree? t.toJson.render = some t) ∧
    Tree.readText? NodeInfo.ofTree? n.toJson.render = some n ∧
    (s.Finite ∧ Tree.readText? Settings.ofTree? s.toJson.render = some s) := by
  intro p r a start last g t n s
  obtain ⟨payload, request, reply, grant, record, node, settings⟩ := documents_read_back
  have finite : p.Finite := Payload.finite_awkward
  have first : start.Written := ⟨by decide, by decide, by decide⟩
  have final : last.Written := ⟨by decide, by decide, by decide⟩
  have numbers : s.Finite := ⟨by decide +kernel, by decide +kernel, by decide +kernel⟩
  exact ⟨⟨finite, payload p finite⟩, ⟨finite, request r finite⟩, reply a,
    ⟨finite, first, final, grant g finite first final⟩, ⟨final, record t final⟩, node n,
    ⟨numbers, settings s numbers⟩⟩

end CellWorld
