import StockImport.Library.Tables

/-!
# Overlapping snapshots

A snapshot lists pairs of a place and an item with quantities, and speaks for
every place it mentions: what it does not list there is zero from then on.
Applied one after the other, snapshots leave a state with a closed form: a pair
exists once it has been listed, and its quantity is what the last snapshot that
mentions the place says.  Snapshots that share no place commute.  A snapshot that
lists a pair more than once is laid over with one of its rows.
-/

set_option autoImplicit false

namespace Snapshots

open Tables

/-- The columns of a snapshot row. -/
structure Layout (Row Place Item Name Quantity : Type) where
  place : Row → Place
  item : Row → Item
  placeName : Row → Name
  itemName : Row → Name
  quantity : Row → Quantity
  number : Row → Nat

/-- What can be asked of an inventory. -/
structure View (Place Item Name Quantity : Type) where
  quantity : Place → Item → Option Quantity
  placeName : Place → Option Name
  itemName : Item → Option Name

theorem View.ext {Place Item Name Quantity : Type} {view other : View Place Item Name Quantity}
    (quantities : ∀ place item, view.quantity place item = other.quantity place item)
    (places : ∀ place, view.placeName place = other.placeName place)
    (items : ∀ item, view.itemName item = other.itemName item) : view = other := by
  obtain ⟨quantity, placeName, itemName⟩ := view
  obtain ⟨quantity', placeName', itemName'⟩ := other
  have first : quantity = quantity' := funext fun place => funext fun item => quantities place item
  have second : placeName = placeName' := funext places
  have third : itemName = itemName' := funext items
  rw [first, second, third]

def View.empty {Place Item Name Quantity : Type} : View Place Item Name Quantity where
  quantity _ _ := none
  placeName _ := none
  itemName _ := none

/-- The last element of a list with a property. -/
def LastWith {α : Type} (l : List α) (has : α → Prop) (x : α) : Prop :=
  ∃ before after, l = before ++ x :: after ∧ has x ∧ ∀ other ∈ after, ¬ has other

theorem filter_getLast?_eq_some {α : Type} {p : α → Bool} {l : List α} {x : α} :
    (l.filter p).getLast? = some x ↔ LastWith l (fun y => p y = true) x := by
  rw [List.getLast?_filter, List.find?_eq_some_iff_append]
  constructor
  · rintro ⟨holds, after, before, shape, none⟩
    refine ⟨before.reverse, after.reverse, ?_, holds, ?_⟩
    · have whole := congrArg List.reverse shape
      simpa using whole
    · intro other member
      simpa using none other (by simpa using member)
  · rintro ⟨before, after, rfl, holds, none⟩
    refine ⟨holds, after.reverse, before.reverse, by simp, ?_⟩
    intro other member
    simpa using none other (by simpa using member)

section Closed

variable {Row Place Item Name Quantity : Type} [DecidableEq Place] [DecidableEq Item]
variable [Zero Quantity] (layout : Layout Row Place Item Name Quantity)

/-- The quantity a snapshot gives a pair. -/
def Layout.listed (snapshot : List Row) (place : Place) (item : Item) : Option Quantity :=
  (snapshot.find? fun row => (layout.place row, layout.item row) = (place, item)).map layout.quantity

def Layout.mentions (snapshot : List Row) (place : Place) : Bool :=
  snapshot.any fun row => layout.place row = place

/-- The name of a place on its last row. -/
def Layout.lastPlaceName (snapshot : List Row) (place : Place) : Option Name :=
  (lastOf layout.place layout.number snapshot place).map layout.placeName

def Layout.lastItemName (snapshot : List Row) (item : Item) : Option Name :=
  (lastOf layout.item layout.number snapshot item).map layout.itemName

def Layout.mentionsItem (snapshot : List Row) (item : Item) : Bool :=
  snapshot.any fun row => layout.item row = item

def Layout.apply (snapshot : List Row) (view : View Place Item Name Quantity) :
    View Place Item Name Quantity where
  quantity place item :=
    match layout.listed snapshot place item with
    | some quantity => some quantity
    | none =>
        if layout.mentions snapshot place then (view.quantity place item).map fun _ => 0
        else view.quantity place item
  placeName place := (layout.lastPlaceName snapshot place).or (view.placeName place)
  itemName item := (layout.lastItemName snapshot item).or (view.itemName item)

def Layout.applyAll (snapshots : List (List Row)) : View Place Item Name Quantity :=
  snapshots.foldl (fun view snapshot => layout.apply snapshot view) .empty

theorem Layout.applyAll_snoc (snapshots : List (List Row)) (snapshot : List Row) :
    layout.applyAll (snapshots ++ [snapshot]) =
      layout.apply snapshot (layout.applyAll snapshots) := by
  simp [Layout.applyAll]

/-! ## The closed form -/

/-- The last snapshot that mentions a place. -/
def Layout.lastMentioning (snapshots : List (List Row)) (place : Place) : Option (List Row) :=
  (snapshots.filter fun snapshot => layout.mentions snapshot place).getLast?

def Layout.lastMentioningItem (snapshots : List (List Row)) (item : Item) : Option (List Row) :=
  (snapshots.filter fun snapshot => layout.mentionsItem snapshot item).getLast?

def Layout.everListed (snapshots : List (List Row)) (place : Place) (item : Item) : Bool :=
  snapshots.any fun snapshot => (layout.listed snapshot place item).isSome

omit [Zero Quantity] in
theorem Layout.listed_mentions {snapshot : List Row} {place : Place} {item : Item}
    {quantity : Quantity} (listed : layout.listed snapshot place item = some quantity) :
    layout.mentions snapshot place = true := by
  simp only [Layout.listed, Option.map_eq_some_iff] at listed
  obtain ⟨row, found, _⟩ := listed
  have pair := List.find?_some found
  simp only [decide_eq_true_eq, Prod.mk.injEq] at pair
  simp only [Layout.mentions, List.any_eq_true, decide_eq_true_eq]
  exact ⟨row, List.mem_of_find?_eq_some found, pair.1⟩

theorem Layout.quantity_applyAll (snapshots : List (List Row)) (place : Place) (item : Item) :
    (layout.applyAll snapshots).quantity place item =
      if layout.everListed snapshots place item then
        some (((layout.lastMentioning snapshots place).bind fun snapshot =>
          layout.listed snapshot place item).getD 0)
      else none := by
  induction snapshots using List.reverseRecOn with
  | nil => rfl
  | append_singleton snapshots snapshot ih =>
      rw [Layout.applyAll_snoc]
      simp only [Layout.apply, ih, Layout.everListed, Layout.lastMentioning, List.any_append,
        List.filter_append, List.any_cons, List.any_nil, Bool.or_false, List.filter_cons,
        List.filter_nil]
      cases listed : layout.listed snapshot place item with
      | some quantity =>
          have mentioned := layout.listed_mentions listed
          simp [mentioned, listed]
      | none =>
          cases mentioned : layout.mentions snapshot place with
          | false => simp
          | true =>
              simp only [if_true, Option.isSome_none, Bool.or_false, List.getLast?_append,
                List.getLast?_singleton, Option.some_or, Option.bind_some, listed, Option.getD_none]
              split
              · next ever => simp [ever]
              · next never => simp [never]

omit [Zero Quantity] in
theorem lastName_isSome {Key : Type} [DecidableEq Key] (partition : Row → Key) (order : Row → Nat)
    (name : Row → Name) (snapshot : List Row) (k : Key) :
    ((lastOf partition order snapshot k).map name).isSome =
      snapshot.any fun row => partition row = k := by
  cases last : lastOf partition order snapshot k with
  | none =>
      rw [lastOf_eq_none] at last
      simp only [Option.map_none, Option.isSome_none]
      symm
      simpa using last
  | some row =>
      obtain ⟨member, same, _⟩ := lastOf_eq_some last
      simp only [Option.map_some, Option.isSome_some]
      symm
      simp only [List.any_eq_true, decide_eq_true_eq]
      exact ⟨row, member, same⟩

omit [DecidableEq Item] [Zero Quantity] in
theorem foldl_lastName (mentions : List Row → Bool) (name : List Row → Option Name)
    (named : ∀ snapshot, (name snapshot).isSome = mentions snapshot)
    (snapshots : List (List Row)) (snapshot : List Row) :
    ((name snapshot).or ((snapshots.filter mentions).getLast?.bind name)) =
      ((snapshots ++ [snapshot]).filter mentions).getLast?.bind name := by
  simp only [List.filter_append, List.filter_cons, List.filter_nil]
  cases found : name snapshot with
  | some value =>
      have mentioned : mentions snapshot = true := by rw [← named, found]; rfl
      simp [mentioned, found]
  | none =>
      have absent : mentions snapshot = false := by rw [← named, found]; rfl
      simp [absent]

theorem Layout.placeName_applyAll (snapshots : List (List Row)) (place : Place) :
    (layout.applyAll snapshots).placeName place =
      (layout.lastMentioning snapshots place).bind fun snapshot =>
        layout.lastPlaceName snapshot place := by
  induction snapshots using List.reverseRecOn with
  | nil => rfl
  | append_singleton snapshots snapshot ih =>
      rw [Layout.applyAll_snoc]
      simp only [Layout.apply, ih]
      exact foldl_lastName (fun snapshot => layout.mentions snapshot place)
        (fun snapshot => layout.lastPlaceName snapshot place)
        (fun snapshot => lastName_isSome layout.place layout.number layout.placeName snapshot place)
        snapshots snapshot

theorem Layout.itemName_applyAll (snapshots : List (List Row)) (item : Item) :
    (layout.applyAll snapshots).itemName item =
      (layout.lastMentioningItem snapshots item).bind fun snapshot =>
        layout.lastItemName snapshot item := by
  induction snapshots using List.reverseRecOn with
  | nil => rfl
  | append_singleton snapshots snapshot ih =>
      rw [Layout.applyAll_snoc]
      simp only [Layout.apply, ih]
      exact foldl_lastName (fun snapshot => layout.mentionsItem snapshot item)
        (fun snapshot => layout.lastItemName snapshot item)
        (fun snapshot => lastName_isSome layout.item layout.number layout.itemName snapshot item)
        snapshots snapshot

/-! ## Snapshots of different places -/

/-- No place is in both snapshots. -/
def Layout.Apart (first second : List Row) : Prop :=
  ∀ place, layout.mentions first place = true → layout.mentions second place = false

omit [DecidableEq Item] [Zero Quantity] in
theorem Layout.Apart.symm {layout : Layout Row Place Item Name Quantity}
    {first second : List Row} (apart : layout.Apart first second) :
    layout.Apart second first := by
  intro place inSecond
  cases inFirst : layout.mentions first place with
  | false => rfl
  | true =>
      rw [apart place inFirst] at inSecond
      cases inSecond

omit [Zero Quantity] in
theorem Layout.listed_unmentioned {snapshot : List Row} {place : Place}
    (unmentioned : layout.mentions snapshot place = false) (item : Item) :
    layout.listed snapshot place item = none := by
  cases listed : layout.listed snapshot place item with
  | none => rfl
  | some quantity =>
      rw [layout.listed_mentions listed] at unmentioned
      cases unmentioned

/-- A snapshot leaves the places that it does not mention. -/
theorem Layout.quantity_apply_unmentioned {snapshot : List Row} {place : Place}
    (unmentioned : layout.mentions snapshot place = false)
    (view : View Place Item Name Quantity) (item : Item) :
    (layout.apply snapshot view).quantity place item = view.quantity place item := by
  simp [Layout.apply, layout.listed_unmentioned unmentioned, unmentioned]

/-- On a place that it mentions, a snapshot goes by the quantities of that place. -/
theorem Layout.quantity_apply_congr {view other : View Place Item Name Quantity} {place : Place}
    {item : Item} (same : view.quantity place item = other.quantity place item)
    (snapshot : List Row) :
    (layout.apply snapshot view).quantity place item =
      (layout.apply snapshot other).quantity place item := by
  simp only [Layout.apply, same]

theorem Layout.quantity_comm {first second : List Row} (apart : layout.Apart first second)
    (view : View Place Item Name Quantity) (place : Place) (item : Item) :
    (layout.apply second (layout.apply first view)).quantity place item =
      (layout.apply first (layout.apply second view)).quantity place item := by
  cases inFirst : layout.mentions first place with
  | true =>
      have notSecond := apart place inFirst
      rw [layout.quantity_apply_unmentioned notSecond]
      exact layout.quantity_apply_congr
        (layout.quantity_apply_unmentioned notSecond view item).symm first
  | false =>
      rw [layout.quantity_apply_unmentioned inFirst (layout.apply second view)]
      exact layout.quantity_apply_congr
        (layout.quantity_apply_unmentioned inFirst view item) second

omit [DecidableEq Item] [Zero Quantity] in
theorem Layout.lastPlaceName_unmentioned {snapshot : List Row} {place : Place}
    (unmentioned : layout.mentions snapshot place = false) :
    layout.lastPlaceName snapshot place = none := by
  have named := lastName_isSome layout.place layout.number layout.placeName snapshot place
  cases last : layout.lastPlaceName snapshot place with
  | none => rfl
  | some name =>
      change (layout.lastPlaceName snapshot place).isSome = layout.mentions snapshot place at named
      rw [unmentioned, last] at named
      cases named

theorem Layout.placeName_comm {first second : List Row} (apart : layout.Apart first second)
    (view : View Place Item Name Quantity) (place : Place) :
    (layout.apply second (layout.apply first view)).placeName place =
      (layout.apply first (layout.apply second view)).placeName place := by
  simp only [Layout.apply]
  cases inFirst : layout.mentions first place with
  | true => rw [layout.lastPlaceName_unmentioned (apart place inFirst), Option.none_or,
      Option.none_or]
  | false => rw [layout.lastPlaceName_unmentioned inFirst, Option.none_or, Option.none_or]

/-- The items are the same whatever the order, and so are their names where the two
snapshots agree on them. -/
theorem Layout.itemName_comm (first second : List Row)
    (view : View Place Item Name Quantity) (item : Item) :
    ((layout.apply second (layout.apply first view)).itemName item).isSome =
        ((layout.apply first (layout.apply second view)).itemName item).isSome ∧
      ((∀ name name', layout.lastItemName first item = some name →
          layout.lastItemName second item = some name' → name = name') →
        (layout.apply second (layout.apply first view)).itemName item =
          (layout.apply first (layout.apply second view)).itemName item) := by
  simp only [Layout.apply]
  cases layout.lastItemName first item with
  | none => simp
  | some name =>
      cases layout.lastItemName second item with
      | none => simp
      | some name' =>
          refine ⟨rfl, fun agree => ?_⟩
          rw [agree name name' rfl rfl]

end Closed

/-! ## Snapshots that repeat a pair -/

section Repeated

variable {Row Place Item Name Quantity : Type} [DecidableEq Place] [DecidableEq Item]
variable [Zero Quantity] (layout : Layout Row Place Item Name Quantity)

def Layout.Lists (row : Row) (place : Place) (item : Item) : Prop :=
  layout.place row = place ∧ layout.item row = item

/-- `after` is `before` with a snapshot laid over it; where the snapshot lists a pair
more than once, one of its rows counts. -/
structure Layout.Overlays (snapshot : List Row) (before after : View Place Item Name Quantity) :
    Prop where
  quantity : ∀ place item,
    (∃ row ∈ snapshot, layout.Lists row place item ∧
      after.quantity place item = some (layout.quantity row)) ∨
    ((∀ row ∈ snapshot, ¬ layout.Lists row place item) ∧
      after.quantity place item =
        if layout.mentions snapshot place then (before.quantity place item).map fun _ => 0
        else before.quantity place item)
  placeName : ∀ place,
    after.placeName place = (layout.lastPlaceName snapshot place).or (before.placeName place)
  itemName : ∀ item,
    after.itemName item = (layout.lastItemName snapshot item).or (before.itemName item)

/-- Snapshots laid over each other from an empty inventory on. -/
inductive Layout.Replays : List (List Row) → View Place Item Name Quantity → Prop
  | none : Layout.Replays [] .empty
  | snoc {snapshots : List (List Row)} {snapshot : List Row}
      {before after : View Place Item Name Quantity} (earlier : Layout.Replays snapshots before)
      (overlays : layout.Overlays snapshot before after) :
      Layout.Replays (snapshots ++ [snapshot]) after

variable {layout}

/-- What is laid over depends on the rows of the snapshot only. -/
theorem Layout.Overlays.congr {snapshot other : List Row}
    {before after : View Place Item Name Quantity} (overlays : layout.Overlays snapshot before after)
    (same : ∀ row, row ∈ snapshot ↔ row ∈ other)
    (apart : ∀ row ∈ snapshot, ∀ row' ∈ snapshot,
      layout.number row = layout.number row' → row = row') :
    layout.Overlays other before after where
  quantity place item := by
    have mentions : layout.mentions snapshot place = layout.mentions other place := by
      rw [Bool.eq_iff_iff]
      simp only [Layout.mentions, List.any_eq_true, same]
    rcases overlays.quantity place item with ⟨row, member, lists, set⟩ | ⟨none, kept⟩
    · exact Or.inl ⟨row, (same row).mp member, lists, set⟩
    · exact Or.inr ⟨fun row member => none row ((same row).mpr member), mentions ▸ kept⟩
  placeName place := by
    rw [overlays.placeName, Layout.lastPlaceName, lastOf_congr same apart, Layout.lastPlaceName]
  itemName item := by
    rw [overlays.itemName, Layout.lastItemName, lastOf_congr same apart, Layout.lastItemName]

omit [DecidableEq Item] [Zero Quantity] in
theorem Layout.mentions_of_lists {snapshot : List Row} {row : Row} {place : Place} {item : Item}
    (member : row ∈ snapshot) (lists : layout.Lists row place item) :
    layout.mentions snapshot place = true := by
  simp only [Layout.mentions, List.any_eq_true, decide_eq_true_eq]
  exact ⟨row, member, lists.1⟩

omit [DecidableEq Item] [Zero Quantity] in
theorem Layout.lastMentioning_snoc (snapshots : List (List Row)) (snapshot : List Row)
    (place : Place) :
    layout.lastMentioning (snapshots ++ [snapshot]) place =
      if layout.mentions snapshot place then some snapshot
      else layout.lastMentioning snapshots place := by
  unfold Layout.lastMentioning
  rw [List.filter_append]
  by_cases mentions : layout.mentions snapshot place = true
  · simp [mentions]
  · simp [mentions]

variable {snapshots : List (List Row)} {view : View Place Item Name Quantity}

/-- A pair has a quantity where some snapshot has listed it. -/
theorem Layout.Replays.present (replays : layout.Replays snapshots view) (place : Place)
    (item : Item) : (∃ quantity, view.quantity place item = some quantity) ↔
      ∃ snapshot ∈ snapshots, ∃ row ∈ snapshot, layout.Lists row place item := by
  induction replays with
  | none => simp [View.empty]
  | @snoc snapshots snapshot before after _ overlays ih =>
      rcases overlays.quantity place item with ⟨row, member, lists, set⟩ | ⟨none, kept⟩
      · exact iff_of_true ⟨_, set⟩ ⟨snapshot, by simp, row, member, lists⟩
      · have same : (∃ quantity, after.quantity place item = some quantity) ↔
            ∃ quantity, before.quantity place item = some quantity := by
          rw [kept]
          split
          · simp
          · rfl
        rw [same, ih]
        constructor
        · rintro ⟨other, member, listed⟩
          exact ⟨other, List.mem_append_left _ member, listed⟩
        · rintro ⟨other, member, row, inRows, lists⟩
          rcases List.mem_append.mp member with old | new
          · exact ⟨other, old, row, inRows, lists⟩
          · rw [List.mem_singleton.mp new] at inRows
            exact absurd lists (none row inRows)

/-- The quantity of a pair is that of a row of the last snapshot that mentions the place,
and zero where this does not list the pair. -/
theorem Layout.Replays.quantity (replays : layout.Replays snapshots view) {place : Place}
    {item : Item} {quantity : Quantity} (found : view.quantity place item = some quantity) :
    ∃ snapshot, layout.lastMentioning snapshots place = some snapshot ∧
      ((∃ row ∈ snapshot, layout.Lists row place item ∧ quantity = layout.quantity row) ∨
        ((∀ row ∈ snapshot, ¬ layout.Lists row place item) ∧ quantity = 0)) := by
  induction replays with
  | none => cases found
  | @snoc snapshots snapshot before after _ overlays ih =>
      rw [Layout.lastMentioning_snoc]
      rcases overlays.quantity place item with ⟨row, member, lists, set⟩ | ⟨none, kept⟩
      · rw [set] at found
        refine ⟨snapshot, if_pos (Layout.mentions_of_lists member lists), Or.inl ?_⟩
        exact ⟨row, member, lists, (Option.some.inj found).symm⟩
      · rw [kept] at found
        split at found
        · next mentions =>
            simp only [Option.map_eq_some_iff] at found
            obtain ⟨_, _, rfl⟩ := found
            exact ⟨snapshot, if_pos mentions, Or.inr ⟨none, rfl⟩⟩
        · next unmentioned =>
            rw [if_neg unmentioned]
            exact ih found

/-- The names do not depend on repeated pairs. -/
theorem Layout.Replays.names (replays : layout.Replays snapshots view) :
    view.placeName = (layout.applyAll snapshots).placeName ∧
      view.itemName = (layout.applyAll snapshots).itemName := by
  induction replays with
  | none => exact ⟨rfl, rfl⟩
  | snoc _ overlays ih =>
      rw [Layout.applyAll_snoc]
      refine ⟨funext fun place => ?_, funext fun item => ?_⟩
      · rw [overlays.placeName, ih.1]
        rfl
      · rw [overlays.itemName, ih.2]
        rfl

end Repeated

/-! ## Snapshots that are there already -/

section Settled

variable {Row Place Item Name Quantity : Type} [DecidableEq Place] [DecidableEq Item]
variable [Zero Quantity] (layout : Layout Row Place Item Name Quantity)

/-- The view is what the snapshot says of its own places and items. -/
structure Layout.Settled (snapshot : List Row) (view : View Place Item Name Quantity) : Prop where
  listed : ∀ row ∈ snapshot,
    view.quantity (layout.place row) (layout.item row) = some (layout.quantity row)
  missing : ∀ place item quantity, layout.mentions snapshot place = true →
    (∀ row ∈ snapshot, ¬ layout.Lists row place item) →
      view.quantity place item = some quantity → quantity = 0
  placeName : ∀ row ∈ snapshot,
    view.placeName (layout.place row) = layout.lastPlaceName snapshot (layout.place row)
  itemName : ∀ row ∈ snapshot,
    view.itemName (layout.item row) = layout.lastItemName snapshot (layout.item row)

/-- The rows of one pair agree on its quantity. -/
def Layout.Consistent (snapshot : List Row) : Prop :=
  ∀ row ∈ snapshot, ∀ other ∈ snapshot,
    layout.Lists other (layout.place row) (layout.item row) →
      layout.quantity other = layout.quantity row

/-- A snapshot of other places, which gives no item another name. -/
structure Layout.Spares (other snapshot : List Row) : Prop where
  places : layout.Apart snapshot other
  items : ∀ item name name', layout.lastItemName snapshot item = some name →
    layout.lastItemName other item = some name' → name' = name

variable {layout}
variable {snapshot other : List Row} {before after view : View Place Item Name Quantity}

omit [DecidableEq Item] [Zero Quantity] in
theorem Layout.mentions_of_mem {row : Row} (member : row ∈ snapshot) :
    layout.mentions snapshot (layout.place row) = true := by
  simp only [Layout.mentions, List.any_eq_true, decide_eq_true_eq]
  exact ⟨row, member, rfl⟩

omit [DecidableEq Item] [Zero Quantity] in
variable (layout) in
theorem Layout.lastPlaceName_of_mem {row : Row} (member : row ∈ snapshot) :
    ∃ name, layout.lastPlaceName snapshot (layout.place row) = some name := by
  have named := lastName_isSome layout.place layout.number layout.placeName snapshot
    (layout.place row)
  rw [← Option.isSome_iff_exists]
  exact named.trans (Layout.mentions_of_mem member)

omit [DecidableEq Place] [Zero Quantity] in
variable (layout) in
theorem Layout.lastItemName_of_mem {row : Row} (member : row ∈ snapshot) :
    ∃ name, layout.lastItemName snapshot (layout.item row) = some name := by
  have named := lastName_isSome layout.item layout.number layout.itemName snapshot
    (layout.item row)
  rw [← Option.isSome_iff_exists]
  refine named.trans ?_
  simp only [List.any_eq_true, decide_eq_true_eq]
  exact ⟨row, member, rfl⟩

omit [Zero Quantity] in
/-- What to compare row by row. -/
theorem Layout.Spares.of_rows
    (places : ∀ row ∈ snapshot, ∀ row' ∈ other, layout.place row' ≠ layout.place row)
    (names : ∀ row ∈ snapshot, ∀ row' ∈ other, layout.item row' = layout.item row →
      layout.itemName row' = layout.itemName row) : layout.Spares other snapshot where
  places place mentions := by
    simp only [Layout.mentions, List.any_eq_true, decide_eq_true_eq] at mentions
    obtain ⟨row, member, rfl⟩ := mentions
    simp only [Layout.mentions, List.any_eq_false, decide_eq_true_eq]
    exact fun row' member' => places row member row' member'
  items item name name' last last' := by
    simp only [Layout.lastItemName, Option.map_eq_some_iff] at last last'
    obtain ⟨row, found, rfl⟩ := last
    obtain ⟨row', found', rfl⟩ := last'
    obtain ⟨member, same, _⟩ := lastOf_eq_some found
    obtain ⟨member', same', _⟩ := lastOf_eq_some found'
    exact names row member row' member' (same'.trans same.symm)

/-- After a snapshot its own places and items are as it says. -/
theorem Layout.Overlays.settles (overlays : layout.Overlays snapshot before after)
    (consistent : layout.Consistent snapshot) : layout.Settled snapshot after where
  listed row member := by
    rcases overlays.quantity (layout.place row) (layout.item row) with
      ⟨deciding, inRows, lists, set⟩ | ⟨none, _⟩
    · rw [set, consistent row member deciding inRows lists]
    · exact absurd ⟨rfl, rfl⟩ (none row member)
  missing place item quantity mentions unlisted found := by
    rcases overlays.quantity place item with ⟨row, member, lists, _⟩ | ⟨_, kept⟩
    · exact absurd lists (unlisted row member)
    · rw [kept, if_pos mentions, Option.map_eq_some_iff] at found
      obtain ⟨_, _, zero⟩ := found
      exact zero.symm
  placeName row member := by
    obtain ⟨name, last⟩ := Layout.lastPlaceName_of_mem layout member
    rw [overlays.placeName, last, Option.some_or]
  itemName row member := by
    obtain ⟨name, last⟩ := Layout.lastItemName_of_mem layout member
    rw [overlays.itemName, last, Option.some_or]

/-- It stays so as long as the snapshots that follow spare it. -/
theorem Layout.Overlays.keeps_settled (overlays : layout.Overlays other before after)
    (spares : layout.Spares other snapshot) (settled : layout.Settled snapshot before) :
    layout.Settled snapshot after := by
  have quantity : ∀ place item, layout.mentions snapshot place = true →
      after.quantity place item = before.quantity place item := by
    intro place item mentions
    have unmentioned := spares.places place mentions
    rcases overlays.quantity place item with ⟨row, member, lists, _⟩ | ⟨_, kept⟩
    · rw [Layout.mentions_of_lists member lists] at unmentioned
      cases unmentioned
    · rw [kept, unmentioned]
      rfl
  refine ⟨?_, ?_, ?_, ?_⟩
  · intro row member
    rw [quantity _ _ (Layout.mentions_of_mem member)]
    exact settled.listed row member
  · intro place item found mentions unlisted
    rw [quantity place item mentions]
    exact settled.missing place item found mentions unlisted
  · intro row member
    have unmentioned := spares.places _ (Layout.mentions_of_mem member)
    rw [overlays.placeName, Layout.lastPlaceName_unmentioned layout unmentioned, Option.none_or]
    exact settled.placeName row member
  · intro row member
    obtain ⟨name, last⟩ := Layout.lastItemName_of_mem layout member
    have now := settled.itemName row member
    rw [overlays.itemName]
    cases renamed : layout.lastItemName other (layout.item row) with
    | none => exact now
    | some name' => rw [Option.some_or, spares.items _ name name' last renamed, last]

/-- A snapshot with the same rows is settled as well. -/
theorem Layout.Settled.congr (settled : layout.Settled snapshot view)
    (same : ∀ row, row ∈ snapshot ↔ row ∈ other)
    (apart : ∀ row ∈ snapshot, ∀ row' ∈ snapshot,
      layout.number row = layout.number row' → row = row') : layout.Settled other view := by
  have mentions : ∀ place, layout.mentions other place = layout.mentions snapshot place := by
    intro place
    rw [Bool.eq_iff_iff]
    simp only [Layout.mentions, List.any_eq_true, same]
  refine ⟨fun row member => settled.listed row ((same row).mpr member), ?_, ?_, ?_⟩
  · intro place item quantity mentioned unlisted
    exact settled.missing place item quantity (mentions place ▸ mentioned)
      fun row member => unlisted row ((same row).mp member)
  · intro row member
    rw [settled.placeName row ((same row).mpr member), Layout.lastPlaceName,
      lastOf_congr same apart, Layout.lastPlaceName]
  · intro row member
    rw [settled.itemName row ((same row).mpr member), Layout.lastItemName,
      lastOf_congr same apart, Layout.lastItemName]

/-- A snapshot is settled from its place in the sequence on, as long as those after it
spare it. -/
theorem Layout.Replays.settled {snapshots earlier later : List (List Row)}
    (replays : layout.Replays snapshots view) (consistent : layout.Consistent snapshot)
    (shape : snapshots = earlier ++ snapshot :: later)
    (spared : ∀ other ∈ later, layout.Spares other snapshot) : layout.Settled snapshot view := by
  induction replays generalizing later with
  | none => simp at shape
  | @snoc snapshots last before after _ overlays ih =>
      rcases List.eq_nil_or_concat later with rfl | ⟨later, newest, rfl⟩
      · obtain ⟨_, sameLast⟩ := List.append_inj' shape rfl
        cases sameLast
        exact overlays.settles consistent
      · rw [List.concat_eq_append] at shape spared
        rw [← List.cons_append, ← List.append_assoc] at shape
        obtain ⟨sameEarlier, sameLast⟩ := List.append_inj' shape rfl
        cases sameLast
        refine overlays.keeps_settled (spared _ (by simp)) (ih sameEarlier ?_)
        intro other member
        exact spared other (List.mem_append_left _ member)

end Settled

end Snapshots
