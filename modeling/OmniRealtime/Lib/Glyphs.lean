import Mathlib

/-!
# Text as it is spoken

What is left of a text without its white space: each character with a flag that tells whether white
space stands before it. A text that was cut into pieces is spoken as it was written if the pieces
have its characters, and its flags but for the first one of each piece.

1. `glyphs_append`: a text written in two parts.
2. `glyphs_words`, `glyphs_join`: the words of a text, and words joined by one space.
3. `push_fits`, `push_fused`, `cut_loosens`: what appending to the last piece, and cutting it,
   does to the pieces.
-/

namespace OmniRealtime

open List Prod

universe u

namespace Glyphs

variable {α : Type u} {isSpace : α → Bool} (s t : List α) (sep : Bool)

/-! ## Characters and the white space before them -/

/-- The characters that are not white space; `sep` if white space, or nothing, stands before. -/
def glyphs (isSpace : α → Bool) : Bool → List α → List (Bool × α)
  | _, [] => []
  | sep, c :: text => if isSpace c then glyphs isSpace true text
      else (sep, c) :: glyphs isSpace false text

/-- Whether a text leaves white space behind. -/
def sepAfter (isSpace : α → Bool) : Bool → List α → Bool
  | sep, [] => sep
  | _, c :: text => sepAfter isSpace (isSpace c) text

theorem glyphs_append :
    glyphs isSpace sep (s ++ t) = glyphs isSpace sep s ++ glyphs isSpace (sepAfter isSpace sep s) t := by
  induction s generalizing sep with
  | nil => rfl
  | cons c s ih =>
    cases hc : isSpace c with
    | true | false => simp [glyphs, sepAfter, hc, ih]

theorem sepAfter_append :
    sepAfter isSpace sep (s ++ t) = sepAfter isSpace (sepAfter isSpace sep s) t := by
  induction s generalizing sep with
  | nil => rfl
  | cons c s ih => exact ih (isSpace c)

/-- Only white space, or nothing, is spoken as nothing. -/
theorem sepAfter_of_glyphs_nil {s : List α} (h : glyphs isSpace true s = []) :
    sepAfter isSpace true s = true := by
  induction s with
  | nil => rfl
  | cons c s ih =>
    cases hc : isSpace c with
    | true =>
      simp only [glyphs, hc, if_true] at h
      simpa [sepAfter, hc] using ih h
    | false => simp [glyphs, hc] at h

/-- What stands before a text changes at most the flag of its first character. -/
theorem glyphs_flag (isSpace : α → Bool) (sep sep' : Bool) (t : List α) :
    glyphs isSpace sep t = glyphs isSpace sep' t ∨ ∃ c rest, t = c :: rest ∧ isSpace c = false ∧
        glyphs isSpace sep t = (sep, c) :: glyphs isSpace false rest ∧
        glyphs isSpace sep' t = (sep', c) :: glyphs isSpace false rest := by
  cases t with
  | nil => exact .inl rfl
  | cons c t =>
    cases hc : isSpace c with
    | true => exact .inl (by simp [glyphs, hc])
    | false => exact .inr ⟨c, t, rfl, hc, by simp [glyphs, hc], by simp [glyphs, hc]⟩

/-! ## Words -/

/-- The maximal runs without white space. -/
def words (isSpace : α → Bool) (text : List α) : List (List α) :=
  (text.splitOnP isSpace).filter fun w => !w.isEmpty

def wordGlyphs : List α → List (Bool × α)
  | [] => []
  | c :: w => (true, c) :: w.map (false, ·)

theorem mem_words {text w : List α} (h : w ∈ words isSpace text) :
    w ≠ [] ∧ ∀ c ∈ w, isSpace c = false := by
  obtain ⟨hmem, hne⟩ := mem_filter.1 h
  refine ⟨by simpa using hne, ?_⟩
  clear h hne
  induction text generalizing w with
  | nil =>
    obtain rfl : w = [] := by simpa using hmem
    exact nofun
  | cons a text ih =>
    rw [splitOnP_cons_eq_if_modifyHead] at hmem
    obtain ⟨first, rest, heq⟩ := exists_cons_of_ne_nil (splitOnP_ne_nil isSpace text)
    cases ha : isSpace a with
    | true =>
      rw [if_pos ha] at hmem
      rcases mem_cons.1 hmem with rfl | hmem
      · exact nofun
      · exact ih hmem
    | false =>
      rw [if_neg (by simp [ha]), heq, modifyHead_cons] at hmem
      rcases mem_cons.1 hmem with rfl | hmem
      · intro c hc
        rcases mem_cons.1 hc with rfl | hc
        · exact ha
        · exact ih (heq ▸ mem_cons_self) c hc
      · exact ih (heq ▸ mem_cons_of_mem _ hmem)

theorem glyphs_words (text : List α) :
    glyphs isSpace true text = (words isSpace text).flatMap wordGlyphs := by
  -- In the middle of a word the first piece goes on with it.
  suffices h : glyphs isSpace true text = (words isSpace text).flatMap wordGlyphs ∧
      ∀ first rest, text.splitOnP isSpace = first :: rest → glyphs isSpace false text =
          first.map (false, ·) ++ (rest.filter fun w => !w.isEmpty).flatMap wordGlyphs from h.1
  induction text with
  | nil =>
    refine ⟨rfl, fun first rest h => ?_⟩
    obtain ⟨rfl, rfl⟩ : [] = first ∧ [] = rest := by simpa using h
    rfl
  | cons c text ih =>
    obtain ⟨ihwords, ihrest⟩ := ih
    obtain ⟨first, rest, heq⟩ := exists_cons_of_ne_nil (splitOnP_ne_nil isSpace text)
    unfold words
    rw [splitOnP_cons_eq_if_modifyHead]
    cases hc : isSpace c with
    | true =>
      rw [if_pos rfl]
      have hglyphs : ∀ sep, glyphs isSpace sep (c :: text) = (words isSpace text).flatMap wordGlyphs := by
        intro sep
        simpa [glyphs, hc] using ihwords
      refine ⟨hglyphs true, fun first' rest' h => ?_⟩
      obtain ⟨rfl, rfl⟩ : [] = first' ∧ text.splitOnP isSpace = rest' := by simpa using h
      exact hglyphs false
    | false =>
      rw [if_neg Bool.false_ne_true, heq, modifyHead_cons]
      have hfalse := ihrest first rest heq
      constructor
      · simp [glyphs, hc, hfalse, wordGlyphs]
      · intro first' rest' h
        obtain ⟨rfl, rfl⟩ : c :: first = first' ∧ rest = rest' := by simpa using h
        simp [glyphs, hc, hfalse]

theorem glyphs_word {w : List α} (hw : ∀ c ∈ w, isSpace c = false) (t : List α) :
    glyphs isSpace false (w ++ t) = w.map (false, ·) ++ glyphs isSpace false t := by
  induction w with
  | nil => rfl
  | cons c w ih =>
    have hc := hw c mem_cons_self
    simp [glyphs, hc, ih fun d hd => hw d (mem_cons_of_mem c hd)]

theorem sepAfter_word {w : List α} (hne : w ≠ []) (hw : ∀ c ∈ w, isSpace c = false) (sep : Bool) :
    sepAfter isSpace sep w = false := by
  induction w generalizing sep with
  | nil => exact absurd rfl hne
  | cons c w ih =>
    have hc := hw c mem_cons_self
    cases w with
    | nil => exact hc
    | cons d w =>
      exact ih (cons_ne_nil _ _) (fun e he => hw e (mem_cons_of_mem c he)) (isSpace c)

theorem glyphs_join {space : α} (hspace : isSpace space = true) {ws : List (List α)}
    (hws : ∀ w ∈ ws, w ≠ [] ∧ ∀ c ∈ w, isSpace c = false) :
    glyphs isSpace true ([space].intercalate ws) = ws.flatMap wordGlyphs ∧
      (ws ≠ [] → sepAfter isSpace true ([space].intercalate ws) = false) := by
  induction ws with
  | nil => exact ⟨rfl, fun h => absurd rfl h⟩
  | cons w ws ih =>
    obtain ⟨hne, hw⟩ := hws w mem_cons_self
    obtain ⟨ihglyphs, ihsep⟩ := ih fun v hv => hws v (mem_cons_of_mem w hv)
    obtain ⟨c, rest, rfl⟩ := exists_cons_of_ne_nil hne
    have hc := hw c mem_cons_self
    have hrest : ∀ d ∈ rest, isSpace d = false := fun d hd => hw d (mem_cons_of_mem c hd)
    have hword : ∀ t, glyphs isSpace true (c :: rest ++ t) =
        wordGlyphs (c :: rest) ++ glyphs isSpace false t := by
      intro t
      simp [glyphs, hc, wordGlyphs, glyphs_word hrest]
    cases ws with
    | nil =>
      rw [intercalate_singleton]
      refine ⟨?_, fun _ => sepAfter_word hne hw true⟩
      have hword := hword []
      rw [append_nil] at hword
      simpa [glyphs] using hword
    | cons v ws =>
      rw [intercalate_cons_cons]
      constructor
      · rw [append_assoc, hword, flatMap_cons, ← ihglyphs]
        simp [glyphs, hspace]
      · intro _
        rw [append_assoc, sepAfter_append, sepAfter_word hne hw true]
        have hsep := ihsep (cons_ne_nil _ _)
        simpa [sepAfter, hspace] using hsep

/-! ## Pieces -/

/-- A piece: what stands before its first character is not heard. -/
def piece (isSpace : α → Bool) (text : List α) : List (Option Bool × α) :=
  match glyphs isSpace true text with
  | [] => []
  | g :: gs => (none, g.2) :: gs.map fun g => (some g.1, g.2)

/-- A character of a piece and the written one. -/
structure Fits (spoken : Option Bool × α) (written : Bool × α) : Prop where
  char : spoken.2 = written.2
  flag : spoken.1 = none ∨ spoken.1 = some written.1

/-- Somewhere white space was lost inside a piece. -/
def Fused (spoken : List (Option Bool × α)) (written : List (Bool × α)) : Prop :=
  ∃ (i : Nat) (c d : α), spoken[i]? = some (some false, c) ∧ written[i]? = some (true, d)

theorem not_fused_of_fits {spoken : List (Option Bool × α)} {written : List (Bool × α)}
    (h : List.Forall₂ Fits spoken written) : ¬Fused spoken written := by
  rintro ⟨i, c, d, hspoken, hwritten⟩
  induction h generalizing i with
  | nil => simp at hspoken
  | cons hfit _ ih =>
    cases i with
    | zero =>
      simp only [getElem?_cons_zero, Option.some.injEq] at hspoken hwritten
      subst hspoken hwritten
      simpa using hfit.flag
    | succ i => exact ih i (by simpa using hspoken) (by simpa using hwritten)

/-- White space lost in two texts stays lost in what goes on. -/
theorem Fused.append {spoken spoken' : List (Option Bool × α)} {written written' : List (Bool × α)}
    (h : Fused spoken written) : Fused (spoken ++ spoken') (written ++ written') := by
  obtain ⟨i, c, d, hspoken, hwritten⟩ := h
  refine ⟨i, c, d, ?_, ?_⟩
  · rw [getElem?_append_left (List.getElem?_eq_some_iff.1 hspoken).1]
    exact hspoken
  · rw [getElem?_append_left (List.getElem?_eq_some_iff.1 hwritten).1]
    exact hwritten

theorem piece_append : piece isSpace (s ++ t) =
      if glyphs isSpace true s = [] then piece isSpace t
      else piece isSpace s ++ (glyphs isSpace (sepAfter isSpace true s) t).map
        fun g => (some g.1, g.2) := by
  unfold piece
  rw [glyphs_append]
  cases hs : glyphs isSpace true s with
  | nil => rw [sepAfter_of_glyphs_nil hs, nil_append, if_pos rfl]
  | cons g gs => simp

theorem map_piece (s : List α) : (piece isSpace s).map snd =
    (glyphs isSpace true s).map snd := by
  unfold piece
  cases glyphs isSpace true s with
  | nil => rfl
  | cons g gs => simp

/-- The characters of a text are the same whatever stands before it. -/
theorem map_glyphs (sep sep' : Bool) (t : List α) :
    (glyphs isSpace sep t).map snd = (glyphs isSpace sep' t).map snd := by
  rcases glyphs_flag isSpace sep sep' t with h | ⟨c, rest, -, -, h, h'⟩
  · rw [h]
  · rw [h, h']
    rfl

/-- White space stands behind the text, not behind the piece that goes on with the next word. -/
def Fuses (isSpace : α → Bool) (text last next : List α) : Prop :=
  glyphs isSpace true last ≠ [] ∧ sepAfter isSpace true last = false ∧
    sepAfter isSpace true text = true ∧ ∃ c rest, next = c :: rest ∧ isSpace c = false

theorem fits_self (gs : List (Bool × α)) :
    List.Forall₂ Fits (gs.map fun g => (some g.1, g.2)) gs := by
  induction gs with
  | nil => exact .nil
  | cons g gs ih => exact .cons ⟨rfl, .inr rfl⟩ ih

theorem fits_piece (t : List α) : List.Forall₂ Fits (piece isSpace t) (glyphs isSpace sep t) := by
  unfold piece
  rcases glyphs_flag isSpace true sep t with h | ⟨c, rest, -, -, h, h'⟩
  · rw [h]
    cases glyphs isSpace sep t with
    | nil => exact .nil
    | cons g gs => exact .cons ⟨rfl, .inl rfl⟩ (fits_self gs)
  · rw [h, h']
    exact .cons ⟨rfl, .inl rfl⟩ (fits_self _)

variable {before : List (Option Bool × α)} {text last : List α}

/-- The next part of the text, put behind the last piece, fits. -/
theorem push_fits
    (hfit : List.Forall₂ Fits (before ++ piece isSpace last) (glyphs isSpace true text))
    (htail : glyphs isSpace true last ≠ [] → sepAfter isSpace true last = true →
      sepAfter isSpace true text = true)
    {next : List α} (hcln : ¬Fuses isSpace text last next) :
    List.Forall₂ Fits (before ++ piece isSpace (last ++ next))
      (glyphs isSpace true (text ++ next)) := by
  rw [piece_append, glyphs_append]
  split
  · next hnil =>
    have hlast : piece isSpace last = [] := by
      unfold piece
      rw [hnil]
    rw [hlast, append_nil] at hfit
    exact rel_append hfit (fits_piece _ next)
  · next hne =>
    rw [← append_assoc]
    refine rel_append hfit ?_
    have hsame : glyphs isSpace (sepAfter isSpace true last) next =
        glyphs isSpace (sepAfter isSpace true text) next := by
      rcases glyphs_flag isSpace (sepAfter isSpace true last)
        (sepAfter isSpace true text) next with h | ⟨c, rest, hnext, hc, -⟩
      · exact h
      · cases hlast : sepAfter isSpace true last with
        | true => rw [htail hne hlast]
        | false =>
          cases htext : sepAfter isSpace true text with
          | true => exact absurd ⟨hne, hlast, htext, c, rest, hnext, hc⟩ hcln
          | false => rfl
    rw [hsame]
    exact fits_self _

/-- A next part that begins with a word while white space was lost is fused to the last one. -/
theorem push_fused
    (hchars : (before ++ piece isSpace last).map snd = (glyphs isSpace true text).map snd)
    {next : List α} (hfuses : Fuses isSpace text last next) :
    Fused (before ++ piece isSpace (last ++ next)) (glyphs isSpace true (text ++ next)) := by
  obtain ⟨hne, hlast, htext, c, rest, rfl, hc⟩ := hfuses
  have hlen : (before ++ piece isSpace last).length = (glyphs isSpace true text).length := by
    simpa using congrArg List.length hchars
  refine ⟨(before ++ piece isSpace last).length, c, c, ?_, ?_⟩
  · rw [piece_append, if_neg hne, ← append_assoc, getElem?_append_right (Nat.le_refl _), hlast]
    simp [glyphs, hc]
  · rw [glyphs_append, hlen, getElem?_append_right (Nat.le_refl _), htext]
    simp [glyphs, hc]

/-- White space already lost stays so, whatever is put behind. -/
theorem push_fused_of_fused
    (h : Fused (before ++ piece isSpace last) (glyphs isSpace true text)) (next : List α) :
    Fused (before ++ piece isSpace (last ++ next)) (glyphs isSpace true (text ++ next)) := by
  rw [piece_append, glyphs_append]
  split
  · next hnil =>
    have hlast : piece isSpace last = [] := by
      unfold piece
      rw [hnil]
    rw [hlast, append_nil] at h
    exact h.append
  · rw [← append_assoc]
    exact h.append

theorem push_chars
    (hchars : (before ++ piece isSpace last).map snd = (glyphs isSpace true text).map snd)
    (next : List α) :
    (before ++ piece isSpace (last ++ next)).map snd =
      (glyphs isSpace true (text ++ next)).map snd := by
  rw [map_append, map_piece] at hchars ⊢
  rw [glyphs_append, glyphs_append, map_append, map_append, ← hchars,
    append_assoc, map_glyphs (sepAfter isSpace true last) (sepAfter isSpace true text)]

/-! ## Cutting the last piece -/

/-- A flag is kept, or a space is not heard any more. -/
structure Loosens (old new : Option Bool × α) : Prop where
  char : new.2 = old.2
  flag : new.1 = old.1 ∨ old.1 = some true ∧ new.1 = none

theorem Loosens.refl (x : Option Bool × α) : Loosens x x := ⟨rfl, .inl rfl⟩

theorem loosens_refl (xs : List (Option Bool × α)) : List.Forall₂ Loosens xs xs :=
  forall₂_same.2 fun x _ => .refl x

variable {old new : List (Option Bool × α)}

section

variable (h : List.Forall₂ Loosens old new) {written : List (Bool × α)}
include h

theorem fits_of_loosens (hfit : List.Forall₂ Fits old written) : List.Forall₂ Fits new written := by
  induction h generalizing written with
  | nil => exact hfit
  | cons hl _ ih =>
    cases hfit with
    | cons hhead htail =>
      refine .cons ⟨hl.char.trans hhead.char, ?_⟩ (ih htail)
      rcases hl.flag with heq | ⟨-, hnone⟩
      · rw [heq]
        exact hhead.flag
      · exact .inl hnone

theorem fused_of_loosens (hfused : Fused old written) : Fused new written := by
  obtain ⟨i, c, d, hold, hwritten⟩ := hfused
  refine ⟨i, c, d, ?_, hwritten⟩
  clear hwritten
  induction h generalizing i with
  | nil => exact hold
  | @cons x y xs ys hl _ ih =>
    cases i with
    | zero =>
      simp only [getElem?_cons_zero, Option.some.injEq] at hold ⊢
      subst hold
      rcases hl.flag with heq | ⟨htrue, -⟩
      · exact Prod.ext heq hl.char
      · cases htrue
    | succ i => simpa using ih i (by simpa using hold)

theorem map_of_loosens : new.map snd = old.map snd := by
  induction h with
  | nil => rfl
  | cons hl _ ih => rw [map_cons, map_cons, hl.char, ih]

end

/-- A piece cut between two of its words, each side joined anew. -/
theorem cut_loosens {space : α} (hspace : isSpace space = true) (last : List α) (n : Nat) :
    List.Forall₂ Loosens (piece isSpace last)
      (piece isSpace ([space].intercalate ((words isSpace last).take n)) ++
        piece isSpace ([space].intercalate ((words isSpace last).drop n))) := by
  have htake : ∀ w ∈ (words isSpace last).take n, w ≠ [] ∧ ∀ c ∈ w, isSpace c = false :=
    fun w hw => mem_words (mem_of_mem_take hw)
  have hdrop : ∀ w ∈ (words isSpace last).drop n, w ≠ [] ∧ ∀ c ∈ w, isSpace c = false :=
    fun w hw => mem_words (mem_of_mem_drop hw)
  have hspl : glyphs isSpace true last = ((words isSpace last).take n).flatMap wordGlyphs ++
        ((words isSpace last).drop n).flatMap wordGlyphs := by
    rw [glyphs_words, ← flatMap_append, take_append_drop]
  unfold piece
  rw [(glyphs_join hspace htake).1, (glyphs_join hspace hdrop).1, hspl]
  cases hfst : ((words isSpace last).take n).flatMap wordGlyphs with
  | nil => exact loosens_refl _
  | cons g gs =>
    cases hrest : (words isSpace last).drop n with
    | nil =>
      rw [flatMap_nil, append_nil, append_nil]
      exact loosens_refl _
    | cons w ws =>
      -- The second side begins with the first character of a word.
      obtain ⟨c, w, rfl⟩ := exists_cons_of_ne_nil (hdrop w (hrest ▸ mem_cons_self)).1
      simp only [cons_append, flatMap_cons, wordGlyphs, map_append, map_cons]
      refine .cons (.refl _) (rel_append (loosens_refl _) ?_)
      exact .cons ⟨rfl, .inr ⟨rfl, rfl⟩⟩ (loosens_refl _)

end Glyphs

end OmniRealtime
