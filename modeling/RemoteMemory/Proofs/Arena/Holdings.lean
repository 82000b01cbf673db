import RemoteMemory.Proofs.Arena.Run
import Mathlib.Data.Finmap

/-!
# An arena is a map from regions to bytes

The machine here has no slots, no generations, no vacant list, and no bytes beyond those that a
reader sees: it keeps, for each live region, the bytes and the capacity. Every call on an arena
does to this map what the machine does. The machine leaves two things open, the region that a new
block is named by, which is only known to name no live block, and whether a region that names none
was freed or never issued.
-/

namespace RemoteMemory

structure Holding where
  bytes : ByteArray
  capacity : Nat

namespace Holding

def ofZeros (size : Nat) : Holding :=
  ⟨⟨Array.replicate size 0⟩, size⟩

def overwrite (held : Holding) (data : ByteArray) : Holding :=
  { held with bytes := data ++ held.bytes.extract data.size held.bytes.size }

/-- The bytes cut off at a size, or filled up to it with zeros. -/
def bytesAt (held : Holding) (size : Nat) : ByteArray :=
  held.bytes.extract 0 size ++ ⟨Array.replicate (size - held.bytes.size) 0⟩

end Holding

abbrev Holdings :=
  Finmap fun _ : Region => Holding

namespace Holdings

def count (holdings : Holdings) : Nat :=
  holdings.entries.card

def reserved (holdings : Holdings) : Nat :=
  (holdings.entries.map fun entry => entry.2.capacity).sum

def Grants (limit : Option Nat) (holdings : Holdings) (refused : Bool) (size : Nat) : Prop :=
  refused = false ∧ 1 ≤ size ∧ (∀ bound ∈ limit, holdings.reserved + size ≤ bound) ∧
    size < 2 ^ 62 ∧ holdings.count < 2 ^ 32

instance (limit : Option Nat) (holdings : Holdings) (refused : Bool) (size : Nat) :
    Decidable (Grants limit holdings refused size) :=
  inferInstanceAs (Decidable (_ ∧ _ ∧ _ ∧ _ ∧ _))

/-- What the machine leaves open about one call: the region of a new block, and how the release of a
region that is not live is refused. -/
structure Choice where
  fresh : Region
  refusal : Error

structure Choice.Allowed (choice : Choice) (holdings : Holdings) : Prop where
  fresh_notMem : choice.fresh ∉ holdings
  refusal_eq : choice.refusal = .corrupt ∨ choice.refusal = .doubleFree

def allocate (limit : Option Nat) (choice : Choice) (holdings : Holdings) (refused : Bool)
    (size : Nat) : Except Error Region × Holdings :=
  if Grants limit holdings refused size then
    (.ok choice.fresh, holdings.insert choice.fresh (.ofZeros size))
  else if size = 0 then (.error (.invalidArgument .emptyAllocation), holdings)
  else (.error (.outOfMemory size), holdings)

def release (choice : Choice) (holdings : Holdings) : Option Region → Except Error Unit × Holdings
  | none => (.ok (), holdings)
  | some region =>
    if region ∈ holdings then (.ok (), holdings.erase region)
    else (.error choice.refusal, holdings)

def write (holdings : Holdings) (region : Region) (data : ByteArray) :
    Except Error Unit × Holdings :=
  match holdings.lookup region with
  | none => (.error .corrupt, holdings)
  | some held =>
    if data.size ≤ held.bytes.size then (.ok (), holdings.insert region (held.overwrite data))
    else (.error (.overflow data.size held.bytes.size), holdings)

def readInto (holdings : Holdings) (region : Region) (buffer : ByteArray) :
    Except Error Unit × ByteArray :=
  match holdings.lookup region with
  | none => (.error .corrupt, buffer)
  | some held =>
    if buffer.size ≤ held.bytes.size then (.ok (), held.bytes.extract 0 buffer.size)
    else (.error (.overflow buffer.size held.bytes.size), buffer)

def view (holdings : Holdings) (region : Region) : Except Error ByteArray :=
  match holdings.lookup region with
  | none => .error .corrupt
  | some held => .ok held.bytes

/-- Within its capacity a holding keeps its region and capacity; beyond it a new region takes the
place of the old one, with as much capacity as was asked for. -/
def resizeTo (limit : Option Nat) (choice : Choice) (holdings : Holdings) (refused : Bool)
    (region : Region) (newSize : Nat) : Except Error (Option Region) × Holdings :=
  match holdings.lookup region with
  | none => (.error .corrupt, holdings)
  | some held =>
    if newSize ≤ held.capacity then
      (.ok (some region), holdings.insert region ⟨held.bytesAt newSize, held.capacity⟩)
    else if Grants limit holdings refused newSize then
      (.ok (some choice.fresh),
        (holdings.erase region).insert choice.fresh ⟨held.bytesAt newSize, newSize⟩)
    else (.error (.outOfMemory newSize), holdings)

def resize (limit : Option Nat) (choice : Choice) (holdings : Holdings) (refused : Bool)
    (region? : Option Region) (newSize : Nat) : Except Error (Option Region) × Holdings :=
  match region?, newSize with
  | none, newSize =>
    let (result, after) := holdings.allocate limit choice refused newSize
    (result.map some, after)
  | some region, 0 =>
    let (result, after) := holdings.release choice (some region)
    (result.map fun _ => none, after)
  | some region, newSize + 1 => holdings.resizeTo limit choice refused region (newSize + 1)

theorem resize_of_pos {limit : Option Nat} {choice : Choice} {holdings : Holdings}
    {refused : Bool} {region : Region} {newSize : Nat} (hpos : 0 < newSize) :
    holdings.resize limit choice refused (some region) newSize =
      holdings.resizeTo limit choice refused region newSize := by
  cases newSize with
  | zero => cases hpos
  | succ size => rfl

def attempt (limit : Option Nat) (choice : Choice) (holdings : Holdings) (refused : Bool) :
    Arena.Call → Arena.Event × Holdings
  | .allocate size =>
    let (result, after) := holdings.allocate limit choice refused size
    (.allocate size result, after)
  | .release region? =>
    let (result, after) := holdings.release choice region?
    (.release region? result, after)
  | .resize region? newSize =>
    let (result, after) := holdings.resize limit choice refused region? newSize
    (.resize region? newSize result, after)
  | .write region data =>
    let (result, after) := holdings.write region data
    (.write region data result, after)
  | .read region buffer =>
    let (result, filled) := holdings.readInto region buffer
    (.read region buffer result filled, holdings)
  | .view region => (.view region (holdings.view region), holdings)
  | .resetStats => (.resetStats, holdings)

/-- Attempts in sequence, each with any allowed choice. -/
inductive Run (limit : Option Nat) :
    Holdings → List (Bool × Arena.Call) → List Arena.Event → Holdings → Prop
  | nil (holdings : Holdings) : Run limit holdings [] [] holdings
  | cons {holdings last : Holdings} {refused : Bool} {call : Arena.Call}
      {attempts : List (Bool × Arena.Call)} {events : List Arena.Event} (choice : Choice)
      (allowed : choice.Allowed holdings)
      (rest : Run limit (holdings.attempt limit choice refused call).2 attempts events last) :
      Run limit holdings ((refused, call) :: attempts)
        ((holdings.attempt limit choice refused call).1 :: events) last

/-! ## What a call does not touch -/

section Untouched

variable {limit : Option Nat} {choice : Choice} {holdings : Holdings} {refused : Bool}
  {region other : Region}

theorem lookup_allocate_of_ne (hfresh : other ≠ choice.fresh) (size : Nat) :
    (holdings.allocate limit choice refused size).2.lookup other = holdings.lookup other := by
  unfold allocate
  repeat' split
  · exact Finmap.lookup_insert_of_ne _ hfresh
  · rfl
  · rfl

theorem lookup_release_of_ne {region? : Option Region} (hregion : region? ≠ some other) :
    (holdings.release choice region?).2.lookup other = holdings.lookup other := by
  unfold release
  repeat' split
  · rfl
  · exact Finmap.lookup_erase_ne fun heq => hregion (heq ▸ rfl)
  · rfl

theorem lookup_write_of_ne (hne : other ≠ region) (data : ByteArray) :
    (holdings.write region data).2.lookup other = holdings.lookup other := by
  unfold write
  repeat' split
  · rfl
  · exact Finmap.lookup_insert_of_ne _ hne
  · rfl

theorem lookup_resizeTo_of_ne (hfresh : other ≠ choice.fresh) (hne : other ≠ region)
    (newSize : Nat) :
    (holdings.resizeTo limit choice refused region newSize).2.lookup other =
      holdings.lookup other := by
  unfold resizeTo
  repeat' split
  · rfl
  · exact Finmap.lookup_insert_of_ne _ hne
  · exact (Finmap.lookup_insert_of_ne _ hfresh).trans (Finmap.lookup_erase_ne hne)
  · rfl

theorem lookup_resize_of_ne (hfresh : other ≠ choice.fresh) {region? : Option Region}
    (hregion : region? ≠ some other) (newSize : Nat) :
    (holdings.resize limit choice refused region? newSize).2.lookup other =
      holdings.lookup other := by
  cases region? with
  | none => exact lookup_allocate_of_ne hfresh newSize
  | some region =>
      cases newSize with
      | zero => exact lookup_release_of_ne hregion
      | succ size =>
          have hne : other ≠ region := fun heq => hregion (heq ▸ rfl)
          exact lookup_resizeTo_of_ne hfresh hne (size + 1)

theorem lookup_attempt_of_ne {call : Arena.Call} (hregion : call.region? ≠ some other)
    (hfresh : other ≠ choice.fresh) :
    (holdings.attempt limit choice refused call).2.lookup other = holdings.lookup other := by
  cases call with
  | allocate size => exact lookup_allocate_of_ne hfresh size
  | release region? => exact lookup_release_of_ne hregion
  | resize region? newSize => exact lookup_resize_of_ne hfresh hregion newSize
  | write region data =>
      have hne : other ≠ region := fun heq => hregion (heq ▸ rfl)
      exact lookup_write_of_ne hne data
  | read region buffer => rfl
  | view region => rfl
  | resetStats => rfl

end Untouched

end Holdings

/-! ## The holdings of an arena -/

namespace Block

def holding (block : Block) : Holding :=
  ⟨block.contents, block.capacity⟩

theorem holding_zeroed (size : Nat) : (zeroed size).holding = .ofZeros size := by
  rw [holding, contents_zeroed, Bytes.zeros_eq_replicate]
  rfl

/-- A part of what a reader sees is that part of the bytes. -/
theorem extract_contents (block : Block) (start stop : Nat) :
    block.contents.extract start stop = block.bytes.extract start (min stop block.requested) := by
  rw [contents, ByteArray.extract_extract, Nat.zero_add, Nat.zero_add]

/-- An overwritten prefix shows, and the bytes behind it are those from before. -/
theorem holding_overwrite {block : Block} (h : block.WellSized) {data : ByteArray}
    (hfits : data.size ≤ block.requested) :
    (block.overwrite data).holding = block.holding.overwrite data := by
  have hbytes : block.requested ≤ block.bytes.size := h.size_bytes ▸ h.requested_le
  have hcontents : (block.overwrite data).contents
      = data ++ block.contents.extract data.size block.contents.size := by
    rw [size_contents h, extract_contents, Nat.min_self]
    exact Bytes.extract_zero_overwrite hfits hbytes
  rw [holding, hcontents]
  rfl

/-- Bytes that come into view are zeros, whatever stood there before an earlier shrink. -/
theorem holding_resizeWithin {block : Block} (h : block.WellSized) {newSize : Nat}
    (hle : newSize ≤ block.capacity) :
    (block.resizeWithin newSize).holding = ⟨block.holding.bytesAt newSize, block.capacity⟩ := by
  have hbytes : newSize ≤ block.bytes.size := h.size_bytes ▸ hle
  have hcontents : (block.resizeWithin newSize).contents
      = block.contents.extract 0 newSize ++ Bytes.zeros (newSize - block.contents.size) := by
    rw [size_contents h, extract_contents]
    by_cases hgrow : block.requested < newSize
    · rw [contents, resizeWithin, if_pos hgrow, Nat.min_eq_right (Nat.le_of_lt hgrow)]
      exact Bytes.extract_zero_clearRange (Nat.le_of_lt hgrow) hbytes
    · have hshrink := Nat.not_lt.mp hgrow
      rw [contents, resizeWithin, if_neg hgrow, Nat.min_eq_left hshrink,
        Nat.sub_eq_zero_of_le hshrink]
      exact ByteArray.append_empty.symm
  rw [holding, hcontents, Bytes.zeros_eq_replicate]
  rfl

theorem holding_moved {block : Block} (h : block.WellSized) {newSize : Nat}
    (hlt : block.capacity < newSize) :
    ((zeroed newSize).overwrite block.contents).holding
      = ⟨block.holding.bytesAt newSize, newSize⟩ := by
  have hsize : block.contents.size ≤ newSize := by
    rw [size_contents h]
    exact Nat.le_trans h.requested_le (Nat.le_of_lt hlt)
  have hcontents : ((zeroed newSize).overwrite block.contents).contents
      = block.contents ++ Bytes.zeros (newSize - block.contents.size) := by
    rw [← Bytes.extract_zeros]
    exact Bytes.extract_zero_overwrite hsize (Nat.le_of_eq (Bytes.size_zeros newSize).symm)
  rw [holding, hcontents, Holding.bytesAt, ← Bytes.zeros_eq_replicate]
  change _ = Holding.mk (block.contents.extract 0 newSize ++ _) _
  rw [Bytes.extract_zero_of_le hsize]
  rfl

end Block

namespace Arena

variable {arena after : Arena} {region : Region} {block : Block}

/-- The live blocks as a reader knows them. -/
def holdings (arena : Arena) : Holdings where
  entries := ↑(arena.blocks.map fun pair => (⟨pair.1, pair.2.holding⟩ : (_ : Region) × Holding))
  nodupKeys := by
    rw [Multiset.coe_nodupKeys, List.NodupKeys, List.keys, List.map_map]
    exact arena.nodup_regions

theorem lookup_holdings (arena : Arena) (region : Region) :
    arena.holdings.lookup region = (arena.block? region).map Block.holding := by
  refine Option.ext fun held => ?_
  rw [Finmap.lookup_eq_some_iff, Option.map_eq_some_iff]
  simp only [holdings, Multiset.mem_coe, List.mem_map, block?_eq_some_iff]
  constructor
  · rintro ⟨pair, hpair, heq⟩
    cases heq
    exact ⟨pair.2, hpair, rfl⟩
  · rintro ⟨block, hmem, rfl⟩
    exact ⟨_, hmem, rfl⟩

theorem lookup_of_block? (h : arena.block? region = some block) :
    arena.holdings.lookup region = some block.holding := by
  rw [lookup_holdings, h]
  rfl

theorem lookup_of_not_live (h : arena.block? region = none) :
    arena.holdings.lookup region = none := by
  rw [lookup_holdings, h]
  rfl

theorem mem_holdings_iff : region ∈ arena.holdings ↔ ∃ block, arena.block? region = some block := by
  rw [← Finmap.lookup_isSome, lookup_holdings, Option.isSome_map, Option.isSome_iff_exists]

theorem count_holdings (arena : Arena) : arena.holdings.count = arena.blocks.length := by
  change Multiset.card (Multiset.ofList (arena.blocks.map _)) = _
  rw [Multiset.coe_card, List.length_map]

theorem WellFormed.reserved_holdings (h : arena.WellFormed) :
    arena.holdings.reserved = arena.outstanding := by
  change (Multiset.map _ (Multiset.ofList (arena.blocks.map _))).sum = _
  rw [Multiset.map_coe, Multiset.sum_coe, List.map_map, h.outstanding_eq]
  rfl

theorem Sound.grants_iff (h : arena.Sound) (refused : Bool) (size : Nat) :
    Holdings.Grants arena.limit arena.holdings refused size ↔ arena.Grants refused size := by
  rw [Holdings.Grants, Grants, h.wellFormed.reserved_holdings, count_holdings,
    exceedsLimit_eq_false_iff, h.exists_slot_iff]
  rfl

theorem holdings_eq_insert (hself : after.block? region = some block)
    (hothers : ∀ other, other ≠ region → after.block? other = arena.block? other) :
    after.holdings = arena.holdings.insert region block.holding := by
  refine Finmap.ext_lookup fun other => ?_
  by_cases heq : other = region
  · subst heq
    rw [Finmap.lookup_insert, lookup_of_block? hself]
  · rw [Finmap.lookup_insert_of_ne _ heq, lookup_holdings, lookup_holdings, hothers other heq]

theorem holdings_eq_erase (hself : after.block? region = none)
    (hothers : ∀ other, other ≠ region → after.block? other = arena.block? other) :
    after.holdings = arena.holdings.erase region := by
  refine Finmap.ext_lookup fun other => ?_
  by_cases heq : other = region
  · subst heq
    rw [Finmap.lookup_erase, lookup_of_not_live hself]
  · rw [Finmap.lookup_erase_ne heq, lookup_holdings, lookup_holdings, hothers other heq]

/-! ## Each call does what the machine does -/

/-- What an arena chooses: the next region, and what its tags say of the region that was named. -/
def choice (arena : Arena) (region? : Option Region) : Holdings.Choice where
  fresh := arena.nextRegion
  refusal := region?.elim .corrupt arena.releaseRefusal

theorem Sound.allowed_choice (h : arena.Sound) (region? : Option Region) :
    (arena.choice region?).Allowed arena.holdings where
  fresh_notMem := by
    rw [mem_holdings_iff]
    rintro ⟨block, hblock⟩
    exact h.wellFormed.nextRegion_not_mem block (block?_eq_some_iff.mp hblock)
  refusal_eq := by
    cases region? with
    | none => exact .inl rfl
    | some region =>
        change releaseRefusal arena region = _ ∨ releaseRefusal arena region = _
        unfold releaseRefusal
        split
        · exact .inr rfl
        · exact .inl rfl

theorem Sound.holdings_allocate (h : arena.Sound) (refused : Bool) (region? : Option Region)
    (size : Nat) :
    ((arena.allocate refused size).1, (arena.allocate refused size).2.holdings) =
      arena.holdings.allocate arena.limit (arena.choice region?) refused size := by
  by_cases hgrants : arena.Grants refused size
  · obtain ⟨region, after, hallocate, -, allocated⟩ := allocate_of_grants h.wellFormed hgrants
    have hregion := eq_nextRegion_of_allocate hallocate
    have hafter : after.holdings = arena.holdings.insert region (.ofZeros size) := by
      rw [← Block.holding_zeroed]
      exact holdings_eq_insert allocated.block?_self fun _ => allocated.block?_eq
    rw [Holdings.allocate, if_pos ((h.grants_iff refused size).mpr hgrants), hallocate, hafter,
      hregion]
    rfl
  · rw [Holdings.allocate, if_neg (mt (h.grants_iff refused size).mp hgrants),
      allocate_of_not_grants hgrants, refusal]
    split
    · rfl
    · rfl

theorem Sound.holdings_release (h : arena.Sound) (region? : Option Region) :
    ((arena.release region?).1, (arena.release region?).2.holdings) =
      arena.holdings.release (arena.choice region?) region? := by
  cases region? with
  | none => rfl
  | some region =>
      by_cases hlive : arena.tag? region = some .live
      · obtain ⟨block, hmem⟩ := tag?_eq_live_iff.mp hlive
        obtain ⟨after, hrelease, -, released⟩ := h.wellFormed.release hmem
        have hgone : after.block? region = none := by
          rw [Option.eq_none_iff_forall_ne_some]
          intro other hother
          exact released.not_mem other (block?_eq_some_iff.mp hother)
        have hheld : region ∈ arena.holdings :=
          mem_holdings_iff.mpr ⟨block, block?_of_mem_blocks hmem⟩
        rw [Holdings.release, if_pos hheld, hrelease,
          holdings_eq_erase hgone fun _ => released.block?_eq]
      · have hheld : region ∉ arena.holdings := by
          rw [← Finmap.lookup_eq_none, lookup_of_not_live (block?_eq_none_iff.mpr hlive)]
        rw [Holdings.release, if_neg hheld, release_of_not_live hlive]
        rfl

theorem Sound.holdings_write (h : arena.Sound) (region : Region) (data : ByteArray) :
    ((arena.write region data).1, (arena.write region data).2.holdings) =
      arena.holdings.write region data := by
  cases hblock : arena.block? region with
  | none =>
      simp only [Holdings.write, lookup_of_not_live hblock, write_of_not_live hblock]
  | some block =>
      have hmem := block?_eq_some_iff.mp hblock
      have hsized := h.wellFormed.wellSized _ hmem
      have hsize : block.holding.bytes.size = block.requested := Block.size_contents hsized
      by_cases hfits : data.size ≤ block.requested
      · obtain ⟨after, hwrite, -, replaced⟩ := h.wellFormed.write hmem hfits
        have hafter : after.holdings =
            arena.holdings.insert region (block.holding.overwrite data) := by
          rw [← Block.holding_overwrite hsized hfits]
          exact holdings_eq_insert replaced.block?_self fun _ => replaced.block?_eq
        simp only [Holdings.write, lookup_of_block? hblock, hsize, if_pos hfits, hwrite, hafter]
      · simp only [Holdings.write, lookup_of_block? hblock, hsize, if_neg hfits,
          write_of_lt hblock (Nat.not_le.mp hfits)]

theorem Sound.holdings_readInto (h : arena.Sound) (region : Region) (buffer : ByteArray) :
    arena.readInto region buffer = arena.holdings.readInto region buffer := by
  cases hblock : arena.block? region with
  | none =>
      simp only [Holdings.readInto, lookup_of_not_live hblock, readInto_of_not_live hblock]
  | some block =>
      have hmem := block?_eq_some_iff.mp hblock
      have hsize : block.holding.bytes.size = block.requested :=
        Block.size_contents (h.wellFormed.wellSized _ hmem)
      by_cases hfits : buffer.size ≤ block.requested
      · have hshown : block.holding.bytes.extract 0 buffer.size
            = block.bytes.extract 0 buffer.size := by
          change block.contents.extract 0 buffer.size = _
          rw [Block.extract_contents, Nat.min_eq_left hfits]
        simp only [Holdings.readInto, lookup_of_block? hblock, hsize, if_pos hfits, hshown,
          readInto_of_mem hmem hfits]
      · simp only [Holdings.readInto, lookup_of_block? hblock, hsize, if_neg hfits,
          readInto_of_lt hblock (Nat.not_le.mp hfits)]

theorem holdings_view (arena : Arena) (region : Region) :
    arena.view region = arena.holdings.view region := by
  cases hblock : arena.block? region with
  | none => simp only [Holdings.view, lookup_of_not_live hblock, view_of_not_live hblock]
  | some block =>
      simp only [Holdings.view, lookup_of_block? hblock, view_of_block? hblock]
      rfl

theorem Sound.holdings_move (h : arena.Sound) (refused : Bool) {newSize : Nat}
    (hblock : arena.block? region = some block) (hlt : block.capacity < newSize) :
    ((arena.move refused region newSize).1, (arena.move refused region newSize).2.holdings) =
      arena.holdings.resizeTo arena.limit (arena.choice (some region)) refused region newSize := by
  have hmem := block?_eq_some_iff.mp hblock
  have hbeyond : ¬ newSize ≤ block.holding.capacity := Nat.not_le.mpr hlt
  rcases h.wellFormed.move_cases refused hmem hlt with ⟨hrefused, hmove⟩ |
    ⟨hgrants, moved, placed, written, after, hallocate, -, -, hmove, -, move⟩
  · have hpos : newSize ≠ 0 := Nat.ne_of_gt (Nat.zero_lt_of_lt hlt)
    have hno := mt (h.grants_iff refused newSize).mp hrefused
    simp only [Holdings.resizeTo, lookup_of_block? hblock, if_neg hbeyond, if_neg hno, hmove,
      refusal, if_neg hpos]
  · have hregion := eq_nextRegion_of_allocate hallocate
    have hnew : after.block? moved = some ((Block.zeroed newSize).overwrite block.contents) :=
      move.block?_self hmem
    have hheld := Block.holding_moved (h.wellFormed.wellSized _ hmem) hlt
    have hafter : after.holdings = (arena.holdings.erase region).insert moved
        ⟨block.holding.bytesAt newSize, newSize⟩ := by
      refine Finmap.ext_lookup fun other => ?_
      by_cases hother : other = moved
      · subst hother
        rw [Finmap.lookup_insert, lookup_of_block? hnew, hheld]
      · rw [Finmap.lookup_insert_of_ne _ hother]
        by_cases hold : other = region
        · subst hold
          rw [Finmap.lookup_erase, lookup_of_not_live move.block?_old]
        · rw [Finmap.lookup_erase_ne hold, lookup_holdings, lookup_holdings,
            move.block?_eq hold hother]
    have hyes := (h.grants_iff refused newSize).mpr hgrants
    simp only [Holdings.resizeTo, lookup_of_block? hblock, if_neg hbeyond, if_pos hyes, hmove,
      hafter, hregion]
    rfl

theorem Sound.holdings_resize (h : arena.Sound) (refused : Bool) (region? : Option Region)
    (newSize : Nat) :
    ((arena.resize refused region? newSize).1, (arena.resize refused region? newSize).2.holdings) =
      arena.holdings.resize arena.limit (arena.choice region?) refused region? newSize := by
  have hresizing := resizing_resize arena refused region? newSize
  generalize arena.resize refused region? newSize = resized at hresizing ⊢
  cases hresizing with
  | fresh => rw [Holdings.resize, ← h.holdings_allocate refused none newSize]
  | empty region => rw [Holdings.resize, ← h.holdings_release (some region)]
  | notLive hblock hpos =>
      rw [Holdings.resize_of_pos hpos]
      simp only [Holdings.resizeTo, lookup_of_not_live hblock]
  | @within region block _ hblock hpos hle =>
      have hmem := block?_eq_some_iff.mp hblock
      obtain ⟨-, replaced⟩ := h.wellFormed.resizeWithin hmem hpos hle
      have hheld := Block.holding_resizeWithin (h.wellFormed.wellSized _ hmem) hle
      have hwithin : newSize ≤ block.holding.capacity := hle
      rw [Holdings.resize_of_pos hpos, holdings_eq_insert replaced.block?_self
        fun _ => replaced.block?_eq, hheld]
      simp only [Holdings.resizeTo, lookup_of_block? hblock, if_pos hwithin]
      rfl
  | beyond hblock hlt =>
      rw [Holdings.resize_of_pos (Nat.zero_lt_of_lt hlt)]
      exact h.holdings_move refused hblock hlt

theorem Sound.holdings_attempt (h : arena.Sound) (refused : Bool) (call : Call) :
    ((arena.attempt refused call).1, (arena.attempt refused call).2.holdings) =
      arena.holdings.attempt arena.limit (arena.choice call.region?) refused call := by
  cases call with
  | allocate size =>
      rw [Holdings.attempt, Call.region?, ← h.holdings_allocate refused none size]
      rfl
  | release region? =>
      rw [Holdings.attempt, Call.region?, ← h.holdings_release region?]
      rfl
  | resize region? newSize =>
      rw [Holdings.attempt, Call.region?, ← h.holdings_resize refused region? newSize]
      rfl
  | write region data =>
      rw [Holdings.attempt, ← h.holdings_write region data]
      rfl
  | read region buffer =>
      rw [Holdings.attempt, ← h.holdings_readInto region buffer]
      rfl
  | view region =>
      rw [Holdings.attempt, ← holdings_view]
      rfl
  | resetStats => rfl

theorem header?_eq (h : arena.Sound) (region : Region) :
    arena.header? region =
      (arena.holdings.lookup region).map fun held => (held.bytes.size, held.capacity) := by
  rw [lookup_holdings, header?]
  cases hblock : arena.block? region with
  | none => rfl
  | some block =>
      have hsized := h.wellFormed.wellSized _ (block?_eq_some_iff.mp hblock)
      change some (block.requested, block.capacity) = some (block.contents.size, block.capacity)
      rw [Block.size_contents hsized]

/-- A call leaves what is held under the live regions that it does not name. -/
theorem Sound.lookup_attempt (h : arena.Sound) {refused : Bool} {call : Call} {held : Holding}
    (hheld : arena.holdings.lookup region = some held) (hother : call.region? ≠ some region) :
    (arena.attempt refused call).2.holdings.lookup region = some held := by
  have hallowed := h.allowed_choice call.region?
  have hfresh : region ≠ (arena.choice call.region?).fresh := by
    rintro rfl
    exact hallowed.fresh_notMem (Finmap.mem_of_lookup_eq_some hheld)
  have hafter := congrArg Prod.snd (h.holdings_attempt refused call)
  dsimp only at hafter
  rw [hafter, Holdings.lookup_attempt_of_ne hother hfresh, hheld]

theorem Sound.run (h : arena.Sound) (attempts : List (Bool × Call)) :
    Holdings.Run arena.limit arena.holdings attempts (arena.attemptAll attempts).1
      (arena.attemptAll attempts).2.holdings := by
  induction attempts generalizing arena with
  | nil => exact .nil _
  | cons entry rest ih =>
      obtain ⟨refused, call⟩ := entry
      obtain ⟨hevent, hnext⟩ := Prod.ext_iff.mp (h.holdings_attempt refused call)
      dsimp only at hevent hnext
      have hlimit : (arena.attempt refused call).2.limit = arena.limit :=
        congrArg Prod.snd (nameplate_attempt refused call)
      have hrest := ih (h.attempt refused call)
      rw [hlimit, hnext] at hrest
      have hrun := Holdings.Run.cons (arena.choice call.region?) (h.allowed_choice _) hrest
      rw [← hevent] at hrun
      exact hrun

/-- Along every run from an empty arena, with any refusals of the system among its calls, the live
regions, their bytes and their capacities are those of the machine, and so are all answers. A header
tells the size of these bytes and the capacity, a view shows all of them, and no call touches what
is held under a live region that it does not name. -/
theorem run_holdings (id : Nat) (limit : Option Nat) (attempts : List (Bool × Call)) :
    let (events, last) := ({ id := id, limit := limit } : Arena).attemptAll attempts
    Holdings.Run limit ∅ attempts events last.holdings ∧
      (∀ region, last.header? region =
        (last.holdings.lookup region).map fun held => (held.bytes.size, held.capacity)) ∧
      (∀ region held, last.holdings.lookup region = some held → last.view region = .ok held.bytes) ∧
      ∀ refused call region held, last.holdings.lookup region = some held →
        call.region? ≠ some region →
        (last.attempt refused call).2.holdings.lookup region = some held := by
  have hsound := sound_empty id limit
  have hlast := hsound.attemptAll attempts
  refine ⟨hsound.run attempts, header?_eq hlast, ?_, fun _ _ _ _ => hlast.lookup_attempt⟩
  intro region held hheld
  rw [holdings_view, Holdings.view, hheld]

/-- What an earlier, larger size left behind is not seen again. -/
example :
    (({ id := 0 } : Arena).attemptAll [(false, .allocate 4), (false, .write ⟨0, 0, 0⟩ ⟨#[7, 8, 9]⟩),
      (false, .resize (some ⟨0, 0, 0⟩) 1), (true, .resize (some ⟨0, 0, 0⟩) 3)]).2.view ⟨0, 0, 0⟩
      = .ok ⟨#[7, 0, 0]⟩ := rfl

end Arena

end RemoteMemory
