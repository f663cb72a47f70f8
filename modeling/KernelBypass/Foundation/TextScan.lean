import Mathlib.Data.List.Basic
import Mathlib.Tactic.SplitIfs

namespace KernelBypass.Foundation.TextScan

variable {α β : Type}

section Pieces

def glue (c : α) : List (List α) → List (List α)
  | [] => [[c]]
  | l :: ls => (c :: l) :: ls

variable (ends : α → Bool)

/-- The parts of a text that are each ended by an element of a kind, without it; only the
last one may go without an end. -/
def pieces : List α → List (List α)
  | [] => []
  | c :: t => if ends c then [] :: pieces t else glue c (pieces t)

/-- The same parts, with the elements that end them. -/
def chunks : List α → List (List α)
  | [] => []
  | c :: t => if ends c then [c] :: chunks t else glue c (chunks t)

variable {ends}

theorem pieces_eq_nil {t : List α} : pieces ends t = [] ↔ t = [] := by
  cases t with
  | nil => exact iff_of_true rfl rfl
  | cons c t =>
    rw [pieces]
    split_ifs
    · simp
    · cases pieces ends t <;> simp [glue]

theorem flatten_glue (c : α) (ls : List (List α)) : (glue c ls).flatten = c :: ls.flatten := by
  cases ls <;> rfl

theorem flatten_chunks (t : List α) : (chunks ends t).flatten = t := by
  induction t with
  | nil => rfl
  | cons c t ih =>
    rw [chunks]
    split_ifs
    · rw [List.flatten_cons, ih]
      rfl
    · rw [flatten_glue, ih]

theorem ne_nil_of_mem_glue {c : α} {ls : List (List α)} (h : ∀ l ∈ ls, l ≠ []) :
    ∀ l ∈ glue c ls, l ≠ [] := by
  cases ls with
  | nil => simp [glue]
  | cons l ls => simpa [glue] using fun l' hl' ↦ h l' (List.mem_cons_of_mem l hl')

theorem ne_nil_of_mem_chunks (t : List α) : ∀ l ∈ chunks ends t, l ≠ [] := by
  induction t with
  | nil => simp [chunks]
  | cons c t ih =>
    rw [chunks]
    split_ifs
    · simpa using ih
    · exact ne_nil_of_mem_glue ih

theorem glue_append (c : α) {ls : List (List α)} (h : ls ≠ []) (rest : List (List α)) :
    glue c (ls ++ rest) = glue c ls ++ rest := by
  cases ls with
  | nil => exact absurd rfl h
  | cons l ls => rfl

/-- A text may first be cut at some of the ends. -/
theorem pieces_eq_flatMap {some : α → Bool} (h : ∀ c, some c → ends c) (t : List α) :
    pieces ends t = (chunks some t).flatMap (pieces ends) := by
  induction t with
  | nil => rfl
  | cons c t ih =>
    by_cases hc : some c
    · have hend := h c hc
      simp [chunks, hc, pieces, hend, ih]
    · rw [chunks, if_neg hc]
      cases hchunks : chunks some t with
      | nil =>
        rw [hchunks, List.flatMap_nil] at ih
        obtain rfl := pieces_eq_nil.mp ih
        simp [glue]
      | cons l ls =>
        have hne : pieces ends l ≠ [] := fun hnil ↦
          ne_nil_of_mem_chunks t l (hchunks ▸ List.mem_cons_self) (pieces_eq_nil.mp hnil)
        rw [hchunks, List.flatMap_cons] at ih
        rw [glue, List.flatMap_cons, pieces, pieces, ih]
        split_ifs
        · rfl
        · exact glue_append c hne _

/-- The first part is the text itself, or ends in front of an element that ends one. -/
theorem pieces_head {t l : List α} {ls : List (List α)} (h : pieces ends t = l :: ls) :
    (∀ c ∈ l, ends c = false) ∧ (t = l ∨ ∃ c rest, ends c = true ∧ t = l ++ c :: rest) := by
  induction t generalizing l ls with
  | nil => simp [pieces] at h
  | cons c t ih =>
    rw [pieces] at h
    split_ifs at h with hc
    · obtain ⟨rfl, rfl⟩ := List.cons.inj h
      exact ⟨by simp, Or.inr ⟨c, t, hc, rfl⟩⟩
    · cases hpieces : pieces ends t with
      | nil =>
        obtain rfl := pieces_eq_nil.mp hpieces
        rw [hpieces] at h
        obtain ⟨rfl, rfl⟩ := List.cons.inj h
        exact ⟨by simpa using hc, Or.inl rfl⟩
      | cons l' ls' =>
        rw [hpieces] at h
        obtain ⟨rfl, rfl⟩ := List.cons.inj h
        obtain ⟨hfree, hshape⟩ := ih hpieces
        refine ⟨by simpa using ⟨by simpa using hc, hfree⟩, ?_⟩
        rcases hshape with rfl | ⟨d, rest, hd, rfl⟩
        · exact Or.inl rfl
        · exact Or.inr ⟨d, rest, hd, rfl⟩

section Ended

variable {e : α} (he : ends e = true)

include he

theorem pieces_append {l : List α} (hl : ∀ c ∈ l, ends c = false) (t : List α) :
    pieces ends (l ++ e :: t) = l :: pieces ends t := by
  induction l with
  | nil => rw [List.nil_append, pieces, if_pos he]
  | cons c l ih =>
    obtain ⟨hc, hl⟩ := List.forall_mem_cons.mp hl
    rw [List.cons_append, pieces, hc, ih hl]
    rfl

theorem chunks_append {l : List α} (hl : ∀ c ∈ l, ends c = false) (t : List α) :
    chunks ends (l ++ e :: t) = (l ++ [e]) :: chunks ends t := by
  induction l with
  | nil => rw [List.nil_append, chunks, if_pos he, List.nil_append]
  | cons c l ih =>
    obtain ⟨hc, hl⟩ := List.forall_mem_cons.mp hl
    rw [List.cons_append, chunks, hc, ih hl]
    rfl

variable {ls : List (List α)} (hls : ∀ l ∈ ls, ∀ c ∈ l, ends c = false)

include hls

theorem pieces_flatMap : pieces ends (ls.flatMap (· ++ [e])) = ls := by
  induction ls with
  | nil => rfl
  | cons l ls ih =>
    obtain ⟨hl, hls⟩ := List.forall_mem_cons.mp hls
    rw [List.flatMap_cons, List.append_assoc, List.singleton_append, pieces_append he hl, ih hls]

theorem chunks_flatMap : chunks ends (ls.flatMap (· ++ [e])) = ls.map (· ++ [e]) := by
  induction ls with
  | nil => rfl
  | cons l ls ih =>
    obtain ⟨hl, hls⟩ := List.forall_mem_cons.mp hls
    rw [List.flatMap_cons, List.append_assoc, List.singleton_append, chunks_append he hl, ih hls,
      List.map_cons]

end Ended

end Pieces

section Leftmost

def leftmost (m : List α → Option β) : List α → Option β
  | [] => m []
  | c :: t => (m (c :: t)).or (leftmost m t)

/-- `b` is what a match says at the first position of a text that has one. -/
def IsLeftmost (M : List α → β → Prop) (t : List α) (b : β) : Prop :=
  ∃ front rest, t = front ++ rest ∧ M rest b ∧
    ∀ front' rest' b', t = front' ++ rest' → M rest' b' → front.length ≤ front'.length

variable {m : List α → Option β} {M : List α → β → Prop}

theorem leftmost_eq_none_iff {t : List α} :
    leftmost m t = none ↔ ∀ front rest, t = front ++ rest → m rest = none := by
  induction t with
  | nil => simp [leftmost]
  | cons c t ih =>
    rw [leftmost, Option.or_eq_none_iff, ih]
    constructor
    · rintro ⟨hfirst, hrest⟩ front rest h
      cases front with
      | nil => rwa [← show c :: t = rest from h]
      | cons d front => exact hrest front rest (List.cons.inj h).2
    · intro h
      exact ⟨h [] _ rfl, fun front rest hrest ↦ h (c :: front) rest (by rw [hrest]; rfl)⟩

theorem isLeftmost_of_match {t : List α} {b b' : β} (h : M t b') : IsLeftmost M t b ↔ M t b := by
  constructor
  · rintro ⟨front, rest, ht, hrest, hmin⟩
    obtain rfl := List.length_eq_zero_iff.mp (Nat.le_zero.mp (hmin [] t b' rfl h))
    rwa [show t = rest from ht]
  · intro hb
    exact ⟨[], t, rfl, hb, fun _ _ _ _ _ ↦ Nat.zero_le _⟩

theorem isLeftmost_cons {c : α} {t : List α} {b : β} (h : ∀ b', ¬ M (c :: t) b') :
    IsLeftmost M (c :: t) b ↔ IsLeftmost M t b := by
  constructor
  · rintro ⟨front, rest, ht, hrest, hmin⟩
    cases front with
    | nil => exact absurd (show M (c :: t) b from ht ▸ hrest) (h b)
    | cons d front =>
      refine ⟨front, rest, (List.cons.inj ht).2, hrest, fun front' rest' b' ht' hrest' ↦ ?_⟩
      exact Nat.le_of_succ_le_succ (hmin (c :: front') rest' b' (by rw [ht']; rfl) hrest')
  · rintro ⟨front, rest, rfl, hrest, hmin⟩
    refine ⟨c :: front, rest, rfl, hrest, fun front' rest' b' ht' hrest' ↦ ?_⟩
    cases front' with
    | nil => exact absurd (ht' ▸ hrest') (h b')
    | cons d front' => exact Nat.succ_le_succ (hmin front' rest' b' (List.cons.inj ht').2 hrest')

theorem leftmost_eq_some_iff (hM : ∀ t b, m t = some b ↔ M t b) {t : List α} {b : β} :
    leftmost m t = some b ↔ IsLeftmost M t b := by
  induction t with
  | nil =>
    rw [leftmost, hM]
    constructor
    · intro hb
      exact (isLeftmost_of_match hb).mpr hb
    · rintro ⟨front, rest, ht, hrest, _⟩
      obtain ⟨rfl, rfl⟩ := List.append_eq_nil_iff.mp ht.symm
      exact hrest
  | cons c t ih =>
    cases hm : m (c :: t) with
    | none =>
      have hnone : ∀ b', ¬ M (c :: t) b' := fun b' hb' ↦ by simp [(hM _ b').mpr hb'] at hm
      rw [leftmost, hm, Option.none_or, ih, isLeftmost_cons hnone]
    | some b' =>
      rw [isLeftmost_of_match ((hM _ b').mp hm), ← hM, leftmost, hm, Option.some_or]

variable {ends : α → Bool}

/-- A match does not look beyond an element that ends a part, and needs at least one
element. -/
structure Local (ends : α → Bool) (m : List α → Option β) : Prop where
  nil : m [] = none
  append : ∀ l c rest, (∀ d ∈ l, ends d = false) → ends c = true → m (l ++ c :: rest) = m l

theorem leftmost_pieces (h : Local ends m) (t : List α) :
    leftmost m t = (pieces ends t).findSome? (leftmost m) := by
  induction t with
  | nil => exact h.nil
  | cons c t ih =>
    rw [leftmost, pieces, ih]
    by_cases hc : ends c
    · have hfirst : m (c :: t) = m [] := h.append [] c t (by simp) hc
      rw [if_pos hc, List.findSome?_cons, hfirst, leftmost, h.nil]
      rfl
    · rw [if_neg hc]
      cases hpieces : pieces ends t with
      | nil =>
        obtain rfl := pieces_eq_nil.mp hpieces
        simp [glue, leftmost, h.nil]
      | cons l ls =>
        have hfirst : m (c :: t) = m (c :: l) := by
          obtain ⟨hfree, rfl | ⟨d, rest, hd, rfl⟩⟩ := pieces_head hpieces
          · rfl
          · refine h.append (c :: l) d rest ?_ hd
            simpa using ⟨by simpa using hc, hfree⟩
        rw [glue, List.findSome?_cons, List.findSome?_cons, leftmost, hfirst]
        cases m (c :: l) <;> rfl

end Leftmost

section Patterns

variable [DecidableEq α]

def following : List α → List α → Option (List α)
  | [], t => some t
  | _ :: _, [] => none
  | a :: pat, c :: t => if a = c then following pat t else none

theorem following_eq_some_iff {pat t rest : List α} :
    following pat t = some rest ↔ t = pat ++ rest := by
  induction pat generalizing t with
  | nil => simp [following]
  | cons a pat ih =>
    cases t with
    | nil => simp [following]
    | cons c t =>
      rw [following]
      split_ifs with hac
      · simp [ih, hac]
      · simpa using fun h ↦ absurd h.symm hac

theorem following_append {ends : α → Bool} {pat l rest : List α} {c : α}
    (hpat : ∀ d ∈ pat, ends d = false) (hc : ends c = true) :
    following pat (l ++ c :: rest) = (following pat l).map (· ++ c :: rest) := by
  induction pat generalizing l with
  | nil => rfl
  | cons a pat ih =>
    have ha : a ≠ c := fun h ↦ by simp [h ▸ hpat a List.mem_cons_self] at hc
    cases l with
    | nil => simp [following, ha]
    | cons d l =>
      rw [List.cons_append, following, following]
      split_ifs
      · exact ih fun e he ↦ hpat e (List.mem_cons_of_mem a he)
      · rfl

def upTo (pat : List α) : List α → List α
  | [] => []
  | c :: t => if (following pat (c :: t)).isSome then [] else c :: upTo pat t

variable {pat : List α}

theorem upTo_append {x y : List α}
    (h : ∀ u v, x = u ++ v → v ≠ [] → following pat (v ++ y) = none) :
    upTo pat (x ++ y) = x ++ upTo pat y := by
  induction x with
  | nil => rfl
  | cons c x ih =>
    have hc : following pat (c :: (x ++ y)) = none := h [] (c :: x) rfl (by simp)
    have hrest := ih fun u v huv hv ↦ h (c :: u) v (by rw [huv]; rfl) hv
    rw [List.cons_append, upTo, hc, hrest]
    rfl

theorem upTo_of_following {t rest : List α} (h : following pat t = some rest) :
    upTo pat t = [] := by
  cases t with
  | nil => rfl
  | cons c t => rw [upTo, h, Option.isSome_some, if_pos rfl]

/-- What follows the part is empty or starts with the pattern, which occurs nowhere
before. -/
theorem exists_upTo (pat t : List α) : ∃ rest, t = upTo pat t ++ rest ∧
    (rest = [] ∨ (following pat rest).isSome) ∧
    ∀ u v, upTo pat t = u ++ v → v ≠ [] → following pat (v ++ rest) = none := by
  induction t with
  | nil => exact ⟨[], rfl, Or.inl rfl, fun u v huv hv ↦ absurd (List.append_eq_nil_iff.mp huv.symm).2 hv⟩
  | cons c t ih =>
    rw [upTo]
    split_ifs with hc
    · exact ⟨c :: t, rfl, Or.inr hc,
        fun u v huv hv ↦ absurd (List.append_eq_nil_iff.mp huv.symm).2 hv⟩
    · obtain ⟨rest, ht, hend, hfree⟩ := ih
      refine ⟨rest, by rw [List.cons_append, ← ht], hend, fun u v huv hv ↦ ?_⟩
      cases u with
      | nil =>
        rw [← show c :: upTo pat t = v from huv, List.cons_append, ← ht]
        simpa using hc
      | cons d u => exact hfree u v (List.cons.inj huv).2 hv

end Patterns

section Words

variable (blank : α → Bool)

/-- The parts of a text between blank elements, without the empty ones. -/
def words (t : List α) : List (List α) := (t.splitOnP blank).filter (!·.isEmpty)

variable {blank}

theorem words_append_blank {c : α} (hc : blank c = true) (t t' : List α) :
    words blank (t ++ c :: t') = words blank t ++ words blank t' := by
  rw [words, List.splitOnP_append_cons t t' hc, List.filter_append]
  rfl

theorem words_blank_append {front : List α} (h : ∀ c ∈ front, blank c = true) (t : List α) :
    words blank (front ++ t) = words blank t := by
  induction front with
  | nil => rfl
  | cons c front ih =>
    have hfirst := words_append_blank (h c List.mem_cons_self) [] (front ++ t)
    rw [List.cons_append, ← ih fun d hd ↦ h d (List.mem_cons_of_mem c hd)]
    exact hfirst

structure IsWord (blank : α → Bool) (w : List α) : Prop where
  ne_nil : w ≠ []
  solid : ∀ c ∈ w, blank c = false

theorem words_word {w : List α} (hw : IsWord blank w) : words blank w = [w] := by
  have hne : (!w.isEmpty) = true := by simpa using hw.ne_nil
  rw [words, List.splitOnP_eq_singleton hw.solid, List.filter_singleton, hne]
  rfl

theorem words_flatMap {e : α} (he : blank e = true) {ws : List (List α)}
    (hws : ∀ w ∈ ws, IsWord blank w) : words blank (ws.flatMap (· ++ [e])) = ws := by
  induction ws with
  | nil => rfl
  | cons w ws ih =>
    obtain ⟨hw, hws⟩ := List.forall_mem_cons.mp hws
    rw [List.flatMap_cons, List.append_assoc, List.singleton_append, words_append_blank he,
      words_word hw, ih hws]
    rfl

theorem words_word_append {w back : List α} (hw : IsWord blank w)
    (hback : ∀ c ∈ back.head?, blank c = true) :
    words blank (w ++ back) = w :: words blank back := by
  cases back with
  | nil => rw [List.append_nil, words_word hw]; rfl
  | cons c back =>
    have hc : blank c = true := hback c rfl
    have hfirst := words_append_blank hc [] back
    rw [words_append_blank hc, words_word hw]
    exact congrArg (w :: ·) hfirst.symm

def FirstWord (blank : α → Bool) (t w : List α) : Prop :=
  ∃ front back, t = front ++ (w ++ back) ∧ (∀ c ∈ front, blank c = true) ∧ IsWord blank w ∧
    ∀ c ∈ back.head?, blank c = true

theorem exists_solid (blank : α → Bool) (t : List α) : ∃ w back, t = w ++ back ∧
    (∀ c ∈ w, blank c = false) ∧ ∀ c ∈ back.head?, blank c = true := by
  induction t with
  | nil => exact ⟨[], [], rfl, by simp, by simp⟩
  | cons c t ih =>
    cases hc : blank c with
    | true => exact ⟨[], c :: t, rfl, by simp, by simpa using hc⟩
    | false =>
      obtain ⟨w, back, rfl, hw, hback⟩ := ih
      exact ⟨c :: w, back, rfl, by simpa using ⟨hc, hw⟩, hback⟩

theorem takeWhile_eq_of_head? {p : α → Bool} {w back : List α} (hw : ∀ c ∈ w, p c = true)
    (hback : ∀ c ∈ back.head?, p c = false) : (w ++ back).takeWhile p = w := by
  rw [List.takeWhile_append_of_pos hw]
  cases back with
  | nil => simp
  | cons c back => rw [List.takeWhile_cons_of_neg (by simp [hback c rfl]), List.append_nil]

theorem exists_firstWord {t : List α} (h : words blank t ≠ []) : ∃ w, FirstWord blank t w := by
  induction t with
  | nil => exact absurd rfl h
  | cons c t ih =>
    cases hc : blank c with
    | true =>
      have hrest : words blank ([c] ++ t) = words blank t :=
        words_blank_append (by simpa using hc) t
      obtain ⟨w, front, back, rfl, hfront, hw⟩ := ih (hrest ▸ h)
      exact ⟨w, c :: front, back, rfl, by simpa using ⟨hc, hfront⟩, hw⟩
    | false =>
      obtain ⟨w, back, rfl, hw, hback⟩ := exists_solid blank t
      exact ⟨c :: w, [], back, rfl, by simp, ⟨by simp, by simpa using ⟨hc, hw⟩⟩, hback⟩

theorem head?_words_iff {t w : List α} :
    (words blank t).head? = some w ↔ FirstWord blank t w := by
  have hfirst : ∀ u, FirstWord blank t u → (words blank t).head? = some u := by
    rintro u ⟨front, back, rfl, hfront, hu, hback⟩
    rw [words_blank_append hfront, words_word_append hu hback, List.head?_cons]
  refine ⟨fun h ↦ ?_, hfirst w⟩
  have hne : words blank t ≠ [] := fun hnil ↦ by simp [hnil] at h
  obtain ⟨u, hu⟩ := exists_firstWord hne
  rw [hfirst u hu, Option.some_inj] at h
  exact h ▸ hu

end Words

end KernelBypass.Foundation.TextScan
