import Mathlib

/-!
# Framed logs

A log whose entries belong to frames. At most one frame is open; the entries inside it bear its id and
its number, the frames are numbered from one, and a frame that is closed never opens again.

1. `readFrames`: reads a log; a log that is not framed has no reading.
2. `frames_nodup`, `frames_numbered`: the ids of the frames are distinct, and numbered in order.
3. `frames_closes`, `frames_silent`: a frame is closed at most once, and nothing bears its id afterwards.
-/

namespace OmniRealtime

open List Option

universe u

/-- What an entry of the log is for the frames. -/
inductive FrameMark (κ : Type u)
  /-- Inside the frame; the first such entry opens it. -/
  | within (id : κ) (number : ℕ)
  | close (id : κ) (number : Option ℕ)
  /-- Only between two frames. -/
  | between
  | outside

structure Frames (κ : Type u) where
  /-- The ids of all frames, in the order in which they opened. -/
  opened : List κ := []
  current : Option κ := none

variable {κ : Type u} {l l' : List (FrameMark κ)} {m : FrameMark κ} {f g : Frames κ} {id : κ}

/-- The open frame is the last one. -/
structure Frames.Sound (f : Frames κ) : Prop where
  nodup : f.opened.Nodup
  current : ∀ id, f.current = some id → ∃ before, f.opened = before ++ [id]

theorem Frames.Sound.initial : Frames.Sound ({} : Frames κ) where
  nodup := nodup_nil
  current := by
    intro id h
    cases h

variable [DecidableEq κ]

namespace FrameMark

def id? : FrameMark κ → Option κ
  | .within id _ | .close id _ => some id
  | _ => none

def closes (id : κ) : FrameMark κ → Bool
  | .close other _ => other = id
  | _ => false

def number? : FrameMark κ → Option ℕ
  | .within _ number => some number
  | .close _ number => number
  | _ => none

end FrameMark

namespace Frames

/-- The next entry of a log. -/
def read (f : Frames κ) : FrameMark κ → Option (Frames κ)
  | .within id number =>
    if f.current = some id then if number = f.opened.length then some f else none
    else if f.current = none ∧ id ∉ f.opened ∧ number = f.opened.length + 1 then
      some { opened := f.opened ++ [id], current := some id }
    else none
  | .close id number =>
    if f.current = some id ∧ number.all (fun n => n = f.opened.length) = true then
      some { f with current := none }
    else none
  | .between => if f.current = none then some f else none
  | .outside => some f

theorem read_cases (h : f.read m = some g) :
    (g = f ∧ (∀ id, m.id? = some id → f.current = some id ∧ m.number? = some f.opened.length) ∧
      ∀ id, m.closes id = false) ∨
    (∃ id, m = .within id (f.opened.length + 1) ∧ f.current = none ∧ id ∉ f.opened ∧
      g = { opened := f.opened ++ [id], current := some id }) ∨
    ∃ id number, m = .close id number ∧ f.current = some id ∧
      (∀ n, number = some n → n = f.opened.length) ∧ g = { f with current := none } := by
  cases m with
  | within id number =>
    rw [read] at h
    split at h
    · rename_i hc
      obtain ⟨rfl, heq⟩ := ite_none_right_eq_some.mp h
      cases heq
      refine .inl ⟨rfl, fun other ho => ?_, fun _ => rfl⟩
      cases ho
      exact ⟨hc, rfl⟩
    · obtain ⟨⟨hnone, hfrs, rfl⟩, heq⟩ := ite_none_right_eq_some.mp h
      cases heq
      exact .inr (.inl ⟨id, rfl, hnone, hfrs, rfl⟩)
  | close id number =>
    obtain ⟨⟨hc, hnumber⟩, heq⟩ := ite_none_right_eq_some.mp h
    cases heq
    refine .inr (.inr ⟨id, number, rfl, hc, fun n hn => ?_, rfl⟩)
    rw [hn] at hnumber
    exact of_decide_eq_true hnumber
  | between =>
    obtain ⟨-, heq⟩ := ite_none_right_eq_some.mp h
    cases heq
    refine .inl ⟨rfl, fun _ hid => ?_, fun _ => rfl⟩
    cases hid
  | outside =>
    cases h
    refine .inl ⟨rfl, fun _ hid => ?_, fun _ => rfl⟩
    cases hid

theorem current_of_within {number : ℕ} (h : f.read (.within id number) = some g) :
    g.current = some id := by
  rw [read] at h
  split at h
  · rename_i hc
    obtain ⟨-, heq⟩ := ite_none_right_eq_some.mp h
    cases heq
    exact hc
  · obtain ⟨-, heq⟩ := ite_none_right_eq_some.mp h
    cases heq
    rfl

theorem Sound.read (hf : f.Sound) (h : f.read m = some g) : g.Sound := by
  obtain ⟨rfl, -, -⟩ | ⟨id, -, -, hfrs, rfl⟩ | ⟨id, number, -, -, -, rfl⟩ := read_cases h
  · exact hf
  · exact {
      nodup := nodup_append.mpr ⟨hf.nodup, nodup_singleton id, fun a ha b hb => by
        obtain rfl := mem_singleton.mp hb
        rintro rfl
        exact hfrs ha⟩
      current := fun other ho => by cases ho; exact ⟨f.opened, rfl⟩ }
  · exact ⟨hf.nodup, nofun⟩

/-- A frame that has been closed. -/
def Closed (f : Frames κ) (id : κ) : Prop := id ∈ f.opened ∧ f.current ≠ some id

theorem Closed.read (hcl : f.Closed id) (h : f.read m = some g) :
    g.Closed id ∧ m.id? ≠ some id := by
  obtain ⟨hmem, hc⟩ := hcl
  obtain ⟨rfl, hid, -⟩ | ⟨other, rfl, -, hfrs, rfl⟩ | ⟨other, number, rfl, ho, -, rfl⟩ :=
    read_cases h
  · exact ⟨⟨hmem, hc⟩, fun heq => hc (hid id heq).1⟩
  · have hne : other ≠ id := by
      rintro rfl
      exact hfrs hmem
    exact ⟨⟨mem_append_left _ hmem, fun heq => hne (some.inj heq)⟩, fun heq => hne (some.inj heq)⟩
  · have hne : other ≠ id := by
      rintro rfl
      exact hc ho
    exact ⟨⟨hmem, (some_ne_none _).symm⟩, fun heq => hne (some.inj heq)⟩

/-- Reads the log on. -/
def readAll (f : Frames κ) (l : List (FrameMark κ)) : Option (Frames κ) := l.foldlM read f

theorem Closed.readAll (hcl : f.Closed id) (h : f.readAll l = some g) :
    ∀ m ∈ l, m.id? ≠ some id := by
  induction l generalizing f with
  | nil => exact nofun
  | cons m l ih =>
    obtain ⟨f', hm, hl⟩ := bind_eq_some_iff.mp h
    obtain ⟨hcl', hsilent⟩ := hcl.read hm
    intro other ho
    rcases mem_cons.mp ho with rfl | ho
    · exact hsilent
    · exact ih hcl' hl other ho

end Frames

open Frames

/-- The reading of a log. -/
def readFrames (l : List (FrameMark κ)) : Option (Frames κ) := Frames.readAll {} l

theorem frames_append : readFrames (l ++ l') = (readFrames l).bind fun f => f.readAll l' :=
  foldlM_append

theorem frames_concat : readFrames (l ++ [m]) = (readFrames l).bind fun f => f.read m := by
  rw [frames_append]
  congr 1
  funext f
  exact bind_fun_some (f.read m)

theorem frames_prefix (h : readFrames (l ++ l') = some f) : ∃ g, readFrames l = some g := by
  rw [frames_append] at h
  obtain ⟨g, hg, -⟩ := bind_eq_some_iff.mp h
  exact ⟨g, hg⟩

section

variable (h : readFrames l = some f)
include h

theorem frames_sound : f.Sound := by
  induction l using List.reverseRecOn generalizing f with
  | nil =>
    cases h
    exact Sound.initial
  | append_singleton l m ih =>
    rw [frames_concat] at h
    obtain ⟨g, hg, hm⟩ := bind_eq_some_iff.mp h
    exact (ih hg).read hm

theorem frames_nodup : f.opened.Nodup := (frames_sound h).nodup

/-- The number of an entry is the place of its frame. -/
theorem frames_numbered :
    ∀ m ∈ l, ∀ id n, m.id? = some id → m.number? = some n →
      ∃ k, n = k + 1 ∧ f.opened[k]? = some id := by
  induction l using List.reverseRecOn generalizing f with
  | nil => exact nofun
  | append_singleton l m ih =>
    rw [frames_concat] at h
    obtain ⟨g, hg, hm⟩ := bind_eq_some_iff.mp h
    -- The frames that were opened keep their places.
    have hlast : ∀ id, g.current = some id → ∃ k, g.opened.length = k + 1 ∧ g.opened[k]? = some id := by
      intro id hid
      obtain ⟨before, hbef⟩ := (frames_sound hg).current id hid
      refine ⟨before.length, ?_, ?_⟩
      · rw [hbef, length_append, length_singleton]
      · rw [hbef, getElem?_concat_length]
    intro other ho id n hid hn
    obtain ⟨rfl, hsame, -⟩ | ⟨new, rfl, -, -, rfl⟩ | ⟨old, number, rfl, hc, hnumber, rfl⟩ :=
      read_cases hm
    · rcases mem_append.mp ho with ho | ho
      · exact ih hg other ho id n hid hn
      · obtain rfl := mem_singleton.mp ho
        obtain ⟨hc, hlen⟩ := hsame id hid
        obtain ⟨k, hk, hget⟩ := hlast id hc
        rw [hlen] at hn
        cases hn
        exact ⟨k, hk, hget⟩
    · rcases mem_append.mp ho with ho | ho
      · obtain ⟨k, hk, hget⟩ := ih hg other ho id n hid hn
        refine ⟨k, hk, ?_⟩
        rw [getElem?_append_left (List.getElem?_eq_some_iff.mp hget).1]
        exact hget
      · obtain rfl := mem_singleton.mp ho
        cases hid
        cases hn
        exact ⟨g.opened.length, rfl, getElem?_concat_length⟩
    · rcases mem_append.mp ho with ho | ho
      · exact ih hg other ho id n hid hn
      · obtain rfl := mem_singleton.mp ho
        cases hid
        obtain ⟨k, hk, hget⟩ := hlast _ hc
        exact ⟨k, (hnumber n hn).trans hk, hget⟩

end

/-- The frame of an entry that closes it is closed then. -/
theorem closed_of_closes (hm : m.closes id = true) (h : readFrames (l ++ [m]) = some f) :
    f.Closed id := by
  rw [frames_concat] at h
  obtain ⟨g, hg, hread⟩ := bind_eq_some_iff.mp h
  obtain ⟨rfl, -, hcloses⟩ | ⟨other, rfl, -, -, -⟩ | ⟨other, number, rfl, hc, -, rfl⟩ :=
    read_cases hread
  · rw [hcloses id] at hm
    cases hm
  · cases hm
  · obtain rfl : other = id := of_decide_eq_true hm
    obtain ⟨before, hbef⟩ := (frames_sound hg).current other hc
    refine ⟨?_, (some_ne_none _).symm⟩
    rw [hbef]
    exact mem_append_right _ (mem_singleton_self other)

/-- Nothing behind the end of a frame bears its id. -/
theorem frames_silent (h : readFrames (l ++ m :: l') = some f) (hm : m.closes id = true) :
    ∀ other ∈ l', other.id? ≠ some id := by
  rw [append_cons, frames_append] at h
  obtain ⟨g, hg, hrest⟩ := bind_eq_some_iff.mp h
  exact (closed_of_closes hm hg).readAll hrest

theorem FrameMark.id?_of_closes (hm : m.closes id = true) : m.id? = some id := by
  cases m with
  | close other number => exact congrArg some (of_decide_eq_true hm)
  | _ => cases hm

theorem frames_closes (h : readFrames l = some f) (id : κ) : l.countP
    (FrameMark.closes id) ≤ 1 := by
  induction l using List.reverseRecOn generalizing f with
  | nil => exact Nat.zero_le 1
  | append_singleton l m ih =>
    obtain ⟨g, hg⟩ := frames_prefix h
    have hbef := ih hg
    rw [countP_append, countP_singleton]
    split
    · rename_i hm
      have hnone : l.countP (FrameMark.closes id) = 0 := by
        refine countP_eq_zero.mpr fun other ho hcloses => ?_
        obtain ⟨before, after, rfl⟩ := append_of_mem ho
        rw [append_assoc, cons_append] at h
        exact frames_silent h hcloses m (mem_append_right _ (mem_singleton_self m))
          (FrameMark.id?_of_closes hm)
      exact Nat.le_of_eq (congrArg (· + 1) hnone)
    · exact hbef

end OmniRealtime
