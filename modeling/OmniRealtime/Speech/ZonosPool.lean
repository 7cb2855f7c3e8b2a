import OmniRealtime.Lib.Dict
import OmniRealtime.Lib.HeldSlots

/-!
# The decode state pool of ZONOS2

`state_pool.py`: every request holds one row of the pool, found by its id. A row that is given
back is reset, and the rows of the batch are memoised by its ids. What a row holds is left open
here.

1. `PoolOk`: no row is held twice or free while it is held, free rows are reset, and the memo is
   what `acquire_row` would give.
2. `prepareActiveRows_spec`, `releaseRow_spec`, `releaseInactive_spec`: what the operations do to
   the rows that are held.
-/

namespace OmniRealtime

open List Option Function Dict

structure StatePool (ρ : Type) where
  paddingRow : Nat
  rows : Nat → ρ
  freeRows : List Nat
  ridToRow : Dict String Nat := []
  /-- `_active_ids` and `_active_rows` -/
  active : Option (List String × List Nat) := none

namespace StatePool

variable {ρ : Type} (reset : ρ)

/-- `Zonos2DecodeStatePool.__init__`: all rows but the last are free. -/
def create (numRows : Nat) : StatePool ρ where
  paddingRow := numRows - 1
  rows _ := reset
  freeRows := List.range (numRows - 1)

def rowOf (p : StatePool ρ) (rid : String) : Option Nat := p.ridToRow.get rid

def exhausted (p : StatePool ρ) : String :=
  s!"ZONOS2 decode-state pool exhausted ({p.paddingRow} rows, all held); raise max_running_requests"

def acquireRow (p : StatePool ρ) (rid : String) : Except String (StatePool ρ × Nat) :=
  match p.rowOf rid with
  | some row => .ok (p, row)
  | none =>
    match p.freeRows.getLast? with
    | none => .error p.exhausted
    | some row =>
      .ok ({ p with freeRows := p.freeRows.dropLast, ridToRow := p.ridToRow.set rid row }, row)

/-- `[self.acquire_row(rid) for rid in ids]`. What was acquired before an error stays. -/
def acquireRows (p : StatePool ρ) : List String → StatePool ρ × Except String (List Nat)
  | [] => (p, .ok [])
  | rid :: rids =>
    match p.acquireRow rid with
    | .error message => (p, .error message)
    | .ok (p, row) =>
      match p.acquireRows rids with
      | (p, .error message) => (p, .error message)
      | (p, .ok rows) => (p, .ok (row :: rows))

/-- `prepare_active_rows`, where the memo misses. -/
def buildActiveRows (p : StatePool ρ) (ids : List String) :
    StatePool ρ × Except String (List Nat) :=
  match p.acquireRows ids with
  | (p, .error message) => (p, .error message)
  | (p, .ok rows) => ({ p with active := some (ids, rows) }, .ok rows)

def prepareActiveRows (p : StatePool ρ) (ids : List String) :
    StatePool ρ × Except String (List Nat) :=
  match p.active with
  | some (activeIds, activeRows) =>
    if ids = activeIds then (p, .ok activeRows) else p.buildActiveRows ids
  | none => p.buildActiveRows ids

def releaseRow (p : StatePool ρ) (rid : String) : StatePool ρ :=
  match p.rowOf rid with
  | none => p
  | some row =>
    { p with
      active := none
      rows := Function.update p.rows row reset
      freeRows := p.freeRows ++ [row]
      ridToRow := p.ridToRow.pop rid }

def releaseInactive (p : StatePool ρ) (activeRids : List String) : StatePool ρ :=
  (p.ridToRow.keys.filter fun rid => rid ∉ activeRids).foldl (releaseRow reset) p

/-! ## What the pool keeps -/

structure PoolOk (p : StatePool ρ) : Prop where
  exclusive : Exclusive (List.range p.paddingRow) p.freeRows p.rowOf
  keys : p.ridToRow.keys.Nodup
  free : ∀ row ∈ p.freeRows, p.rows row = reset
  memo : ∀ ids rows, p.active = some (ids, rows) → ids.map p.rowOf = rows.map some

variable {reset} {p : StatePool ρ} {p' p'' : StatePool ρ}

theorem PoolOk.lt_padding (h : PoolOk reset p) {rid : String} {row : Nat}
    (hrow : p.rowOf rid = some row) : row < p.paddingRow :=
  mem_range.1 (h.exclusive.issued rid row hrow)

theorem poolOk_create (numRows : Nat) : PoolOk reset (create reset numRows) where
  exclusive := .full nodup_range
  keys := nodup_nil
  free _ _ := rfl
  memo _ _ h := by cases h

/-- More rows are held, with nothing in them yet. -/
structure Grew (reset : ρ) (p p' : StatePool ρ) : Prop where
  ok : PoolOk reset p'
  padding : p'.paddingRow = p.paddingRow
  rows : p'.rows = p.rows
  kept : ∀ rid row, p.rowOf rid = some row → p'.rowOf rid = some row
  fresh : ∀ rid row, p'.rowOf rid = some row → p.rowOf rid = none → p.rows row = reset

theorem Grew.refl (h : PoolOk reset p) : Grew reset p p :=
  ⟨h, rfl, rfl, fun _ _ h => h, fun _ _ h h' => absurd (h.symm.trans h') (some_ne_none _)⟩

theorem Grew.trans (h : Grew reset p p') (h' : Grew reset p' p'') : Grew reset p p'' where
  ok := h'.ok
  padding := h'.padding.trans h.padding
  rows := h'.rows.trans h.rows
  kept rid row hrow := h'.kept rid row (h.kept rid row hrow)
  fresh := by
    intro rid row hrow hn
    cases hmid : p'.rowOf rid with
    | none => exact h.rows ▸ h'.fresh rid row hrow hmid
    | some row' =>
      obtain rfl : row' = row := some.inj ((h'.kept rid row' hmid).symm.trans hrow)
      exact h.fresh rid row' hmid hn

/-! ## The operations -/

section

variable (h : PoolOk reset p)
include h

theorem acquireRow_spec {rid : String} {p' : StatePool ρ} {row : Nat}
    (ha : p.acquireRow rid = .ok (p', row)) : Grew reset p p' ∧ p'.rowOf rid = some row := by
  unfold acquireRow at ha
  split at ha
  · next row' hrow =>
    cases ha
    exact ⟨.refl h, hrow⟩
  · next hn =>
    split at ha
    · cases ha
    · next row' hlast =>
      cases ha
      have hfree : p.freeRows = p.freeRows.dropLast ++ [row] :=
        (dropLast_append_getLast? row hlast).symm
      have hmem : row ∈ p.freeRows := mem_of_getLast? hlast
      have hkey : rid ∉ p.ridToRow.keys := get_eq_none.1 hn
      have hget : ∀ rid', (p.ridToRow.set rid row).get rid' =
          if rid' = rid then some row else p.rowOf rid' :=
        fun rid' => get_set_of_fresh hkey row rid'
      have hheld : (fun rid' => (p.ridToRow.set rid row).get rid') =
          update p.rowOf rid (some row) := by
        funext rid'
        rw [hget, update_apply]
      have hperm : p.freeRows.Perm (row :: p.freeRows.dropLast) := by
        conv_lhs => rw [hfree]
        exact perm_append_singleton row _
      refine ⟨⟨⟨?_, nodup_set h.keys rid row, ?_, ?_⟩, rfl, rfl, ?_, ?_⟩, ?_⟩
      · have htake := (h.exclusive.perm hperm).take rid
        rw [← hheld] at htake
        exact htake
      · exact fun row' hrow' => h.free row' (mem_of_mem_dropLast hrow')
      · intro ids rows hact
        -- A memoised id was held already.
        rw [← h.memo ids rows hact]
        refine map_congr_left fun rid' hrid' => ?_
        have hsome : p.rowOf rid' ≠ none := by
          intro hrid
          have hmem := mem_map_of_mem (f := p.rowOf) hrid'
          rw [h.memo ids rows hact, hrid] at hmem
          obtain ⟨_, _, hcontra⟩ := mem_map.1 hmem
          cases hcontra
        have hne : rid' ≠ rid := fun heq => hsome (heq ▸ hn)
        exact (hget rid').trans (if_neg hne)
      · intro rid' row' hrow'
        exact (hget rid').trans ((if_neg fun heq => by rw [heq, hn] at hrow'; cases hrow').trans
          hrow')
      · intro rid' row' hrow' hn'
        have hsome : (if rid' = rid then some row else p.rowOf rid') = some row' :=
          (hget rid').symm.trans hrow'
        split at hsome
        · cases hsome
          exact h.free row hmem
        · exact absurd (hn'.symm.trans hsome) (some_ne_none row').symm
      · exact (hget rid).trans (if_pos rfl)

theorem acquireRows_spec (rids : List String) :
    Grew reset p (p.acquireRows rids).1 ∧ ∀ rows, (p.acquireRows rids).2 = .ok rows →
      rids.map (p.acquireRows rids).1.rowOf = rows.map some := by
  induction rids generalizing p with
  | nil =>
    refine ⟨.refl h, fun rows hr => ?_⟩
    obtain rfl : [] = rows := Except.ok.inj hr
    rfl
  | cons rid rids ih =>
    unfold acquireRows
    cases ha : p.acquireRow rid with
    | error message => exact ⟨.refl h, (by rintro _ ⟨⟩)⟩
    | ok res =>
      obtain ⟨p', row⟩ := res
      obtain ⟨hg, hrow⟩ := acquireRow_spec h ha
      obtain ⟨hg', hr⟩ := ih hg.ok
      dsimp only
      cases hrest : p'.acquireRows rids with
      | mk p'' res =>
        rw [hrest] at hg' hr
        cases res with
        | error message => exact ⟨hg.trans hg', (by rintro _ ⟨⟩)⟩
        | ok rows =>
          refine ⟨hg.trans hg', fun rows' hr' => ?_⟩
          obtain rfl : row :: rows = rows' := Except.ok.inj hr'
          rw [map_cons, map_cons, hr rows rfl, hg'.kept rid row hrow]

theorem prepareActiveRows_spec (ids : List String) :
    Grew reset p (p.prepareActiveRows ids).1 ∧ ∀ rows, (p.prepareActiveRows ids).2 = .ok rows →
      ids.map (p.prepareActiveRows ids).1.rowOf = rows.map some := by
  have hbuild : Grew reset p (p.buildActiveRows ids).1 ∧
      ∀ rows, (p.buildActiveRows ids).2 = .ok rows →
        ids.map (p.buildActiveRows ids).1.rowOf = rows.map some := by
    obtain ⟨hg, hr⟩ := acquireRows_spec h ids
    unfold buildActiveRows
    cases ha : p.acquireRows ids with
    | mk p' res =>
      rw [ha] at hg hr
      cases res with
      | error message => exact ⟨hg, (by rintro _ ⟨⟩)⟩
      | ok rows =>
        have hr := hr rows rfl
        refine ⟨⟨⟨hg.ok.exclusive, hg.ok.keys, hg.ok.free, ?_⟩, hg.padding, hg.rows,
          hg.kept, hg.fresh⟩, fun rows' hr' => ?_⟩
        · intro ids' rows' hact
          obtain ⟨rfl, rfl⟩ : ids = ids' ∧ rows = rows' := by simpa using hact
          exact hr
        · obtain rfl : rows = rows' := Except.ok.inj hr'
          exact hr
  unfold prepareActiveRows
  split
  · next activeIds activeRows hact =>
    split
    · next heq =>
      refine ⟨.refl h, fun rows hr => ?_⟩
      obtain rfl : activeRows = rows := Except.ok.inj hr
      rw [heq]
      exact h.memo activeIds activeRows hact
    · exact hbuild
  · exact hbuild

/-- The rows of the ids that meet `P` are still held, untouched, and no others. -/
structure Shrank (reset : ρ) (P : String → Prop) (p p' : StatePool ρ) : Prop where
  ok : PoolOk reset p'
  padding : p'.paddingRow = p.paddingRow
  kept : ∀ rid, P rid → p'.rowOf rid = p.rowOf rid
  same : ∀ rid row, P rid → p.rowOf rid = some row → p'.rows row = p.rows row
  gone : ∀ rid, ¬P rid → p'.rowOf rid = none

theorem releaseRow_spec (rid : String) : Shrank reset (· ≠ rid) p (p.releaseRow reset rid) := by
  unfold releaseRow
  cases hrow : p.rowOf rid with
  | none =>
    refine ⟨h, rfl, fun _ _ => rfl, fun _ _ _ _ => rfl, fun rid' hrid' => ?_⟩
    obtain rfl : rid' = rid := not_not.1 hrid'
    exact hrow
  | some row =>
    have hother : ∀ rid', rid' ≠ rid → (p.ridToRow.pop rid).get rid' = p.rowOf rid' :=
      fun rid' hne => get_pop_of_ne hne
    have hheld : (fun rid' => (p.ridToRow.pop rid).get rid') = update p.rowOf rid none := by
      funext rid'
      rw [update_apply]
      split
      · next heq => exact heq ▸ get_pop_self p.ridToRow rid
      · next hne => exact hother rid' hne
    refine ⟨⟨?_, nodup_pop h.keys rid, ?_, (by rintro _ _ ⟨⟩)⟩, rfl, hother, ?_, ?_⟩
    · have hgive := h.exclusive.give hrow
      rw [← hheld] at hgive
      exact hgive
    · intro row' hrow'
      show update p.rows row reset row' = reset
      rw [update_apply]
      split
      · rfl
      · next hne =>
        refine h.free row' ((mem_append.1 hrow').resolve_right fun hmem => ?_)
        exact hne (mem_singleton.1 hmem)
    · intro rid' row' hrid' hrow'
      refine update_of_ne (fun heq => hrid' ?_) ..
      exact h.exclusive.injective rid' rid row (heq ▸ hrow') hrow
    · intro rid' hrid'
      obtain rfl : rid' = rid := not_not.1 hrid'
      exact get_pop_self p.ridToRow rid'

end

theorem Shrank.trans {P Q : String → Prop} (h : Shrank reset P p p') (h' : Shrank reset Q p' p'')
    (hgone : ∀ rid, p'.rowOf rid = none → p''.rowOf rid = none) :
    Shrank reset (fun rid => P rid ∧ Q rid) p p'' where
  ok := h'.ok
  padding := h'.padding.trans h.padding
  kept rid hrid := (h'.kept rid hrid.2).trans (h.kept rid hrid.1)
  same rid row hrid hrow :=
    (h'.same rid row hrid.2 ((h.kept rid hrid.1).trans hrow)).trans (h.same rid row hrid.1 hrow)
  gone := by
    intro rid hrid
    by_cases hP : P rid
    · exact h'.gone rid fun hQ => hrid ⟨hP, hQ⟩
    · exact hgone rid (h.gone rid hP)

theorem rowOf_releaseRow_none {rid rid' : String} (h : PoolOk reset p)
    (hn : p.rowOf rid' = none) :
    (p.releaseRow reset rid).rowOf rid' = none := by
  have hs := releaseRow_spec h rid
  by_cases heq : rid' = rid
  · exact hs.gone rid' (not_not.2 heq)
  · exact (hs.kept rid' heq).trans hn

theorem releaseRows_spec (h : PoolOk reset p) (rids : List String) :
    Shrank reset (· ∉ rids) p (rids.foldl (releaseRow reset) p) ∧
      ∀ rid, p.rowOf rid = none → (rids.foldl (releaseRow reset) p).rowOf rid = none := by
  induction rids generalizing p with
  | nil =>
    exact ⟨⟨h, rfl, fun _ _ => rfl, fun _ _ _ _ => rfl, fun _ h => absurd not_mem_nil h⟩,
      fun _ h => h⟩
  | cons rid rids ih =>
    have hfst := releaseRow_spec h rid
    obtain ⟨hrest, hn⟩ := ih hfst.ok
    refine ⟨?_, fun rid' hrid' => hn rid' (rowOf_releaseRow_none h hrid')⟩
    have hboth := hfst.trans hrest hn
    have heq : (fun rid' => rid' ≠ rid ∧ rid' ∉ rids) = (· ∉ rid :: rids) := by
      funext rid'
      simp
    rw [heq] at hboth
    exact hboth

/-- The rows of the active ids are kept, all others are released. -/
theorem releaseInactive_spec (h : PoolOk reset p) (activeRids : List String) :
    Shrank reset (· ∈ activeRids) p (p.releaseInactive reset activeRids) := by
  obtain ⟨hs, hn⟩ := releaseRows_spec h (p.ridToRow.keys.filter fun rid => rid ∉ activeRids)
  refine ⟨hs.ok, hs.padding, fun rid hrid => hs.kept rid ?_,
    fun rid row hrid => hs.same rid row ?_, fun rid hrid => ?_⟩
  · simp [hrid]
  · simp [hrid]
  · by_cases hkey : rid ∈ p.ridToRow.keys
    · exact hs.gone rid (by simp [hkey, hrid])
    · exact hn rid (get_eq_none.2 hkey)

end StatePool

end OmniRealtime
