import Reckon.Proofs.Expression.Progress
import Reckon.Proofs.Numeral.Lookahead

/-! # Readings side by side

Two texts that agree at their beginning are read alike until the cursor comes near to where they part:
a numeral may look at three characters that it does not take. The readers of the two texts may also
differ in how many levels they let open; then the one with fewer of them may complain of it and end,
where the other goes on.
-/
namespace Reckon.Expression
set_option autoImplicit false
open Text (isBlank)

/-! ## Cursors in texts that agree -/

/-- The cursors stand at the same offset of two texts that agree before the offset `n`. -/
structure Agree (n : Nat) (c d : Cursor) : Prop where
  position : c.position = d.position
  rest : c.rest.take (n - c.position) = d.rest.take (n - c.position)

namespace Agree

variable {n : Nat} {c d : Cursor}

theorem refl (n : Nat) (c : Cursor) : Agree n c c := ⟨rfl, rfl⟩

theorem advance (h : Agree n c d) (k : Nat) : Agree n (c.advance k) (d.advance k) := by
  refine ⟨congrArg (· + k) h.position, ?_⟩
  have hDrop := take_drop_eq_of_take_eq h.rest k
  rwa [Nat.sub_sub] at hDrop

/-- Before the offset `n` both texts end, or the same character stands in both. -/
theorem cases (h : Agree n c d) (hNear : c.position < n) :
    c.rest = [] ∧ d.rest = [] ∨ ∃ next rest rest', c.rest = next :: rest ∧ d.rest = next :: rest' ∧
      Agree n (c.advance 1) (d.advance 1) := by
  have hRest := h.rest
  obtain ⟨k, hk⟩ : ∃ k, n - c.position = k + 1 := ⟨n - c.position - 1, by omega⟩
  rw [hk] at hRest
  rcases cases_of_take_eq hRest with hNil | ⟨next, rest, rest', hNext, hNext', -⟩
  · exact .inl hNil
  · exact .inr ⟨next, rest, rest', hNext, hNext', h.advance 1⟩

theorem head? (h : Agree n c d) (hNear : c.position < n) : d.rest.head? = c.rest.head? := by
  rcases h.cases hNear with ⟨hNil, hNil'⟩ | ⟨next, rest, rest', hNext, hNext', -⟩
  · rw [hNil, hNil']
  · rw [hNext, hNext']
    rfl

/-- Behind a run of characters the cursors agree again, unless the texts part in the run. -/
theorem run (h : Agree n c d) (p : Char → Bool) :
    d.rest.takeWhile p = c.rest.takeWhile p ∨
      n ≤ c.position + (c.rest.takeWhile p).length ∧ n ≤ d.position + (d.rest.takeWhile p).length := by
  have hPosition := h.position
  by_cases hRun : (c.rest.takeWhile p).length < n - c.position
  · exact .inl (takeWhile_eq_of_take_eq h.rest hRun)
  · by_cases hRun' : (d.rest.takeWhile p).length < n - c.position
    · exact .inl (takeWhile_eq_of_take_eq h.rest.symm hRun').symm
    · exact .inr ⟨by omega, by omega⟩

theorem skipBlanks (h : Agree n c d) :
    Agree n c.skipBlanks d.skipBlanks ∨ n ≤ c.skipBlanks.position ∧ n ≤ d.skipBlanks.position := by
  rcases h.run isBlank with hRun | hFar
  · rw [Cursor.skipBlanks_eq_advance, Cursor.skipBlanks_eq_advance, hRun]
    exact .inl (h.advance _)
  · exact .inr hFar

theorem wordEnd (h : Agree n c d) :
    d.rest.takeWhile Char.isAlpha = c.rest.takeWhile Char.isAlpha ∧ Agree n c.wordEnd d.wordEnd ∨
      n ≤ c.wordEnd.position ∧ n ≤ d.wordEnd.position := by
  rcases h.run Char.isAlpha with hRun | ⟨hFar, hFar'⟩
  · rw [Cursor.wordEnd, Cursor.wordEnd, hRun]
    rcases (h.advance (c.rest.takeWhile Char.isAlpha).length).skipBlanks with hAgree | hFar
    · exact .inl ⟨rfl, hAgree⟩
    · exact .inr hFar
  · have hEnd := (Cursor.ahead_skipBlanks (c.advance (c.rest.takeWhile Char.isAlpha).length)).position_le
    have hEnd' := (Cursor.ahead_skipBlanks (d.advance (d.rest.takeWhile Char.isAlpha).length)).position_le
    exact .inr ⟨Nat.le_trans hFar hEnd, Nat.le_trans hFar' hEnd'⟩

end Agree

/-! ## Readings that part -/

variable {α β : Type}

/-- All that the reading gives was noticed at the offset `p` or behind it; `place` is where the text is
    read on. -/
structure Late (p : Nat) (place : α → Nat) (m : Reading α) : Prop where
  code : ∀ i ∈ m.code, p ≤ i.reached
  ok : ∀ a, m.outcome = .ok a → p ≤ place a
  error : ∀ e, m.outcome = .error e → p ≤ e.reached

theorem Late.mono {p q : Nat} {place : α → Nat} {m : Reading α} (h : Late q place m) (hp : p ≤ q) :
    Late p place m :=
  ⟨fun i hi => Nat.le_trans hp (h.code i hi), fun a ha => Nat.le_trans hp (h.ok a ha),
    fun e he => Nat.le_trans hp (h.error e he)⟩

theorem Reading.Onward.late {m : Reading α} {c : Cursor} {next : α → Cursor} (h : m.Onward c next) :
    Late c.position (fun a => (next a).position) m := by
  cases hOutcome : m.outcome with
  | ok a =>
    have hSpans := h.spans hOutcome
    refine ⟨fun i hi => (hSpans.reached i hi).1, ?_, ?_⟩
    · intro b hb
      cases hOutcome.symm.trans hb
      exact hSpans.le
    · intro e he
      cases hOutcome.symm.trans he
  | error e =>
    have hSpans := (h.spans_error hOutcome).1
    refine ⟨fun i hi => (hSpans.reached i hi).1, ?_, ?_⟩
    · intro b hb
      cases hOutcome.symm.trans hb
    · intro e' he
      cases hOutcome.symm.trans he
      exact hSpans.le

theorem Forward.late {reader : Reader} (h : Forward reader) (c : Cursor) :
    Late c.position Cursor.position (reader c) := (h c).late

/-- The reading with more code in front of its own. -/
def Reading.behind (code : List Instruction) (m : Reading α) : Reading α := ⟨code ++ m.code, m.outcome⟩

theorem Reading.behind_bind (code : List Instruction) (m : Reading α) (f : α → Reading β) :
    m.behind code >>= f = (m >>= f).behind code := by
  cases hOutcome : m.outcome with
  | error e =>
    rw [bind_of_error hOutcome, bind_of_error (m := m.behind code) hOutcome]
    rfl
  | ok a =>
    rw [bind_of_ok hOutcome, bind_of_ok (m := m.behind code) hOutcome]
    simp only [behind, List.append_assoc]

theorem Reading.behind_behind (code more : List Instruction) (m : Reading α) :
    (m.behind more).behind code = m.behind (code ++ more) := by
  simp only [behind, List.append_assoc]

theorem Reading.bind_eq_behind {m : Reading α} {a : α} (h : m.outcome = .ok a) (f : α → Reading β) :
    m >>= f = (f a).behind m.code := bind_of_ok h f

theorem Late.bind {p : Nat} {place : α → Nat} {place' : β → Nat} {m : Reading α} {f : α → Reading β}
    (h : Late p place m) (hf : ∀ a, Late (place a) place' (f a)) : Late p place' (m >>= f) := by
  cases hOutcome : m.outcome with
  | error e =>
    rw [Reading.bind_of_error hOutcome]
    refine ⟨h.code, ?_, ?_⟩
    · intro b hb
      cases hb
    · rintro e' ⟨⟩
      exact h.error e hOutcome
  | ok a =>
    have hLate := (hf a).mono (h.ok a hOutcome)
    rw [Reading.bind_of_ok hOutcome]
    refine ⟨?_, hLate.ok, hLate.error⟩
    intro i hi
    rcases List.mem_append.mp hi with hi | hi
    · exact h.code i hi
    · exact hLate.code i hi

/-- The readings give the same, or they part where the texts do, or the first one ends for want of
    levels where the second one goes on. -/
inductive Alike (n : Nat) (cut : Option Cause) (place : α → Nat) (R : α → α → Prop) :
    Reading α → Reading α → Prop
  | ok {code : List Instruction} {a b : α} (h : R a b) : Alike n cut place R ⟨code, .ok a⟩ ⟨code, .ok b⟩
  | error {code : List Instruction} {e : Complaint} :
      Alike n cut place R ⟨code, .error e⟩ ⟨code, .error e⟩
  | far {code : List Instruction} {p : Nat} {m m' : Reading α} (hFar : n ≤ p + 2) (h : Late p place m)
      (h' : Late p place m') : Alike n cut place R (m.behind code) (m'.behind code)
  | cut {code : List Instruction} {deep : Cause} {p : Nat} {m' : Reading α} (hCut : cut = some deep)
      (h : Late p place m') : Alike n cut place R ⟨code, .error ⟨deep, p, p⟩⟩ (m'.behind code)

namespace Alike

variable {n : Nat} {cut : Option Cause} {place : α → Nat} {place' : β → Nat} {R : α → α → Prop}
  {S : β → β → Prop} {m m' : Reading α}

theorem behind (h : Alike n cut place R m m') (code : List Instruction) :
    Alike n cut place R (m.behind code) (m'.behind code) := by
  cases h with
  | ok h => exact .ok h
  | error => exact .error
  | @far more p m m' hFar h h' =>
    rw [Reading.behind_behind, Reading.behind_behind]
    exact .far hFar h h'
  | @cut more deep p m' hCut h =>
    rw [Reading.behind_behind]
    exact .cut hCut h

theorem bind {f g : α → Reading β} (h : Alike n cut place R m m')
    (hNext : ∀ a b, R a b → m.outcome = .ok a → m'.outcome = .ok b →
      Alike n cut place' S (f a) (g b))
    (hf : ∀ a, Late (place a) place' (f a)) (hg : ∀ a, Late (place a) place' (g a)) :
    Alike n cut place' S (m >>= f) (m' >>= g) := by
  cases h with
  | @ok code a b h => exact (hNext a b h rfl rfl).behind code
  | error => exact .error
  | far hFar h h' =>
    rw [Reading.behind_bind, Reading.behind_bind]
    exact .far hFar (h.bind hf) (h'.bind hg)
  | cut hCut h =>
    rw [Reading.behind_bind]
    exact .cut hCut (h.bind hg)

theorem of_far {p q : Nat} (hm : Late p place m) (hm' : Late q place m') (hp : n ≤ p + 2)
    (hq : n ≤ q + 2) : Alike n cut place R m m' := by
  have hFar : Alike n cut place R (m.behind []) (m'.behind []) :=
    .far (p := n - 2) (by omega) (hm.mono (by omega)) (hm'.mono (by omega))
  exact hFar

/-- Near to where the texts part there is nothing to show. -/
theorem of_near {c d : Cursor} (hAgree : Agree n c d) (hm : Late c.position place m)
    (hm' : Late d.position place m') (h : c.position + 2 < n → Alike n cut place R m m') :
    Alike n cut place R m m' := by
  have hPosition := hAgree.position
  by_cases hNear : c.position + 2 < n
  · exact h hNear
  · exact of_far hm hm' (by omega) (by omega)

theorem pure {a b : α} (h : R a b) : Alike n cut place R (Pure.pure a) (Pure.pure b) := .ok h

theorem emit (i : Instruction) {place : Unit → Nat} :
    Alike n cut place (fun _ _ => True) (Reading.emit i) (Reading.emit i) := .ok trivial

theorem fail (e : Complaint) : Alike n cut place R (Reading.fail e) (Reading.fail e) := .error

theorem fail_at {c d : Cursor} (cause : Cause) (h : Agree n c d) :
    Alike n cut place R (c.fail cause) (d.fail cause) := by
  rw [Cursor.fail, Cursor.fail, h.position]
  exact fail _

/-- Both readings end with the same instruction. -/
theorem emit_pure {c d : Cursor} (i : Instruction) (h : Agree n c d) :
    Alike n cut Cursor.position (Agree n) (Reading.emit i >>= fun _ => Pure.pure c)
      (Reading.emit i >>= fun _ => Pure.pure d) :=
  (emit i).bind (fun _ _ _ _ _ => pure h) (fun _ => (Reading.onward_here c).late)
    fun _ => (Reading.onward_here d).late.mono h.position.le

end Alike

/-! ## Readers of one level -/

/-- The readers give readings that are alike wherever their texts agree. -/
def Parallel (n : Nat) (cut : Option Cause) (reader reader' : Reader) : Prop :=
  ∀ c d, Agree n c d → Alike n cut Cursor.position (Agree n) (reader c) (reader' d)

section Readers

variable {n : Nat} {cut : Option Cause} {c d : Cursor}

theorem parallel_refuse (cause : Cause) : Parallel n cut (refuse cause) (refuse cause) := by
  intro c d h
  exact .fail_at cause h

/-- A reader without levels ends where the other one may go on. -/
theorem parallel_cut {deep : Cause} {reader : Reader} (h : Forward reader) :
    Parallel n (some deep) (refuse deep) reader := by
  intro c d hAgree
  have hCut : Alike n (some deep) Cursor.position (Agree n) (refuse deep c) ((reader d).behind []) :=
    .cut rfl ((h.late d).mono hAgree.position.le)
  exact hCut

theorem far_minusSigns (negated : Bool) {position : Nat} (rest : List Char) (h : n ≤ position) :
    n ≤ (minusSigns negated position rest).2.position :=
  Nat.le_trans h (ahead_minusSigns negated position rest).position_le

theorem agree_minusSigns (negated : Bool) {position : Nat} {rest rest' : List Char}
    (h : Agree n ⟨position, rest⟩ ⟨position, rest'⟩) :
    (minusSigns negated position rest).1 = (minusSigns negated position rest').1 ∧
        Agree n (minusSigns negated position rest).2 (minusSigns negated position rest').2 ∨
      n ≤ (minusSigns negated position rest).2.position ∧
        n ≤ (minusSigns negated position rest').2.position := by
  induction rest generalizing negated position rest' with
  | nil =>
    by_cases hNear : position < n
    · rcases h.cases hNear with ⟨-, rfl⟩ | ⟨next, after, after', hNext, -, -⟩
      · exact .inl ⟨rfl, .refl n _⟩
      · cases hNext
    · exact .inr ⟨far_minusSigns _ _ (by omega), far_minusSigns _ _ (by omega)⟩
  | cons next rest ih =>
    by_cases hNear : position < n
    · rcases h.cases hNear with ⟨hNil, -⟩ | ⟨next', after, after', hNext, rfl, hAfter⟩
      · cases hNil
      · cases hNext
        have hMore (negated : Bool) := ih negated hAfter
        rw [minusSigns, minusSigns]
        split
        · exact hMore negated
        · split
          · exact hMore _
          · exact .inl ⟨rfl, h⟩
    · exact .inr ⟨far_minusSigns _ _ (by omega), far_minusSigns _ _ (by omega)⟩

theorem late_suffixes (negated : Bool) (position : Nat) (rest : List Char) :
    Late position Cursor.position (suffixes negated position rest) := (onward_suffixes _ _ _).late

theorem alike_suffixes (negated : Bool) {position : Nat} {rest rest' : List Char}
    (h : Agree n ⟨position, rest⟩ ⟨position, rest'⟩) :
    Alike n cut Cursor.position (Agree n) (suffixes negated position rest) (suffixes negated position rest') := by
  induction rest generalizing position rest' with
  | nil =>
    refine .of_near h (late_suffixes _ _ _) (late_suffixes _ _ _) fun hNear => ?_
    rcases h.cases (by omega) with ⟨-, rfl⟩ | ⟨next, after, after', hNext, -, -⟩
    · exact .pure (.refl n _)
    · cases hNext
  | cons next rest ih =>
    refine .of_near h (late_suffixes _ _ _) (late_suffixes _ _ _) fun hNear => ?_
    rcases h.cases (by omega) with ⟨hNil, -⟩ | ⟨next', after, after', hNext, rfl, hAfter⟩
    · cases hNil
    · cases hNext
      have hEmit (i : Instruction) : Alike n cut Cursor.position (Agree n)
          (Reading.emit i >>= fun _ => suffixes negated (position + 1) rest)
          (Reading.emit i >>= fun _ => suffixes negated (position + 1) after') :=
        (Alike.emit i).bind (fun _ _ _ _ _ => ih hAfter) (fun _ => late_suffixes _ _ _)
          fun _ => late_suffixes _ _ _
      rw [suffixes, suffixes]
      split
      · exact ih hAfter
      · split
        · exact hEmit _
        · split
          · exact hEmit _
          · exact .pure h

theorem parallel_numeral : Parallel n cut numeral numeral := by
  intro c d h
  have hPosition := h.position
  refine .of_near h (forward_numeral.late c) (forward_numeral.late d) fun hNear => ?_
  have hRest' : d.rest.take (n - c.position) = c.rest.take (n - c.position) := h.rest.symm
  cases hScan : Numeral.scan? c.rest with
  | none =>
    have hScan' := Numeral.scan?_eq_none_of_take_eq h.rest (by omega) hScan
    simp only [numeral, hScan, hScan']
    exact .fail_at _ h
  | some found =>
    obtain ⟨m, rest⟩ := found
    by_cases hLength : m.text.length + 3 ≤ n - c.position
    · obtain ⟨⟨m', rest'⟩, hScan', hSame⟩ :=
        Option.map_eq_some_iff.mp (Numeral.scan?_eq_some_of_take_eq h.rest hScan hLength)
      obtain rfl : m' = m := hSame
      have hAfter := h.advance m'.text.length
      simp only [numeral, hScan, hScan', Cursor.emit, hAfter.position]
      exact .emit_pure _ hAfter
    · cases hScan' : Numeral.scan? d.rest with
      | none =>
        rw [Numeral.scan?_eq_none_of_take_eq hRest' (by omega) hScan'] at hScan
        cases hScan
      | some found' =>
        obtain ⟨m', rest'⟩ := found'
        have hLength' : ¬ m'.text.length + 3 ≤ n - c.position := by
          intro hLength'
          have hSame := Numeral.scan?_eq_some_of_take_eq hRest' hScan' hLength'
          rw [hScan] at hSame
          cases hSame
          exact hLength hLength'
        refine .of_far (onward_numeral hScan).late (onward_numeral hScan').late ?_ ?_
        · rw [Cursor.position_advance]
          omega
        · rw [Cursor.position_advance]
          omega

variable {inside inside' : Reader}

theorem moreArguments_of_head {bound count : Nat} (h : c.rest.head? ≠ some ',') :
    moreArguments inside bound count c = pure (count, c) := by
  cases bound with
  | zero => rfl
  | succ bound =>
    rw [moreArguments]
    split
    · rename_i hComma
      exact absurd (congrArg List.head? hComma) h
    · rfl

theorem late_moreArguments (hForward : Forward inside) (bound count : Nat) (c : Cursor) :
    Late c.position (fun r : Nat × Cursor => r.2.position) (moreArguments inside bound count c) :=
  (onward_moreArguments hForward bound count c).late

theorem late_fail {p : Nat} {e : Complaint} {place : α → Nat} (h : p ≤ e.reached) :
    Late p place (Reading.fail e : Reading α) := by
  refine ⟨by simp [Reading.fail], ?_, ?_⟩
  · intro a ha
    cases ha
  · rintro e' ⟨⟩
    exact h

theorem late_callEnd (f : Builtin) (start count : Nat) (c : Cursor) :
    Late c.position Cursor.position (callEnd f start count c) := by
  rw [callEnd]
  split
  · split
    · have hRead := (Reading.onward_note (c := c.advance 1) (.call f)).bind fun _ _ => Reading.onward_here _
      exact hRead.late.mono (Nat.le_add_right _ _)
    · exact late_fail (Nat.le_add_right _ _)
  · exact late_fail (Nat.le_refl _)

theorem alike_callEnd (f : Builtin) (start count : Nat) (h : Agree n c d) :
    Alike n cut Cursor.position (Agree n) (callEnd f start count c) (callEnd f start count d) := by
  refine .of_near h (late_callEnd f start count c) (late_callEnd f start count d) fun hNear => ?_
  rcases h.cases (by omega) with ⟨hNil, hNil'⟩ | ⟨next, rest, rest', hRest, hRest', hAfter⟩
  · simp only [callEnd, hNil, hNil']
    exact .fail_at _ h
  · by_cases hClose : next = ')'
    · subst hClose
      simp only [callEnd, hRest, hRest', Cursor.emit, hAfter.position]
      split
      · exact .emit_pure _ hAfter
      · exact .fail _
    · rw [callEnd_of_head (by simpa [hRest] using hClose), callEnd_of_head (by simpa [hRest'] using hClose)]
      exact .fail_at _ h

theorem parallel_groupEnd (b : Bracket) : Parallel n cut (groupEnd b) (groupEnd b) := by
  intro c d h
  refine .of_near h ((forward_groupEnd b).late c) ((forward_groupEnd b).late d) fun hNear => ?_
  rcases h.cases (by omega) with ⟨hNil, hNil'⟩ | ⟨next, rest, rest', hRest, hRest', hAfter⟩
  · simp only [groupEnd, hNil, hNil']
    exact .fail_at _ h
  · simp only [groupEnd, hRest, hRest']
    split
    · exact .pure hAfter
    · exact .fail_at _ h

theorem alike_group (hInside : Parallel n cut inside inside') (b : Bracket) (h : Agree n c d) :
    Alike n cut Cursor.position (Agree n) (group inside b c) (group inside' b d) := by
  rw [group_eq_groupEnd, group_eq_groupEnd]
  exact (hInside _ _ (h.advance 1)).bind (fun _ _ hEnd _ _ => parallel_groupEnd b _ _ hEnd)
    ((forward_groupEnd b).late) ((forward_groupEnd b).late)

theorem parallel_negation (negated : Bool) : Parallel n cut (negation negated) (negation negated) := by
  intro c d h
  cases negated with
  | false => exact .pure h
  | true =>
    simp only [negation, if_true, Cursor.emit, h.position]
    exact .emit_pure _ h

variable {exponent exponent' : Reader}

theorem parallel_powerEnd (hExponent : Parallel n cut exponent exponent') (hForward : Forward exponent)
    (hForward' : Forward exponent') : Parallel n cut (powerEnd exponent) (powerEnd exponent') := by
  intro c d h
  refine .of_near h ((forward_powerEnd hForward).late c) ((forward_powerEnd hForward').late d) fun hNear => ?_
  rcases h.cases (by omega) with ⟨hNil, hNil'⟩ | ⟨next, rest, rest', hRest, hRest', hAfter⟩
  · simp only [powerEnd, hNil, hNil']
    exact .pure h
  · by_cases hSign : next = '^'
    · subst hSign
      have hEmit (c : Cursor) : Reading.Onward (do c.emit (.binary .pow); pure c) c id :=
        (Reading.onward_note _).bind fun _ _ => Reading.onward_here _
      simp only [powerEnd, hRest, hRest']
      refine (hExponent _ _ hAfter).bind (fun c₁ d₁ hEnd _ _ => ?_) (fun c₁ => (hEmit c₁).late)
        fun d₁ => (hEmit d₁).late
      simp only [Cursor.emit, hEnd.position]
      exact .emit_pure _ hEnd
    · rw [powerEnd_of_head (by simpa [hRest] using hSign), powerEnd_of_head (by simpa [hRest'] using hSign)]
      exact .pure h

section Inside

variable (hInside : Parallel n cut inside inside') (hForward : Forward inside) (hForward' : Forward inside')
include hInside hForward hForward'

theorem alike_moreArguments {bound bound' : Nat} (count : Nat) (h : Agree n c d)
    (hBound : c.rest.length ≤ bound) (hBound' : d.rest.length ≤ bound') :
    Alike n cut (fun r => r.2.position) (fun r s => r.1 = s.1 ∧ Agree n r.2 s.2)
      (moreArguments inside bound count c) (moreArguments inside' bound' count d) := by
  induction bound generalizing bound' count c d with
  | zero =>
    refine .of_near h (late_moreArguments hForward _ _ c) (late_moreArguments hForward' _ _ d) fun hNear => ?_
    have hNil : c.rest = [] := List.length_eq_zero_iff.mp (Nat.le_zero.mp hBound)
    have hHead := h.head? (by omega)
    rw [moreArguments_of_head (by simp [hNil]), moreArguments_of_head (by simp [hHead, hNil])]
    exact .pure ⟨rfl, h⟩
  | succ bound ih =>
    refine .of_near h (late_moreArguments hForward _ _ c) (late_moreArguments hForward' _ _ d) fun hNear => ?_
    have hHead := h.head? (by omega)
    by_cases hComma : c.rest.head? = some ','
    · obtain ⟨rest, hRest⟩ := List.head?_eq_some_iff.mp hComma
      obtain ⟨rest', hRest'⟩ := List.head?_eq_some_iff.mp (hHead.trans hComma)
      rw [hRest, List.length_cons] at hBound
      rw [hRest', List.length_cons] at hBound'
      obtain ⟨bound', rfl⟩ : ∃ k, bound' = k + 1 := ⟨bound' - 1, by omega⟩
      have hLength : (c.advance 1).rest.length ≤ bound := by
        rw [Cursor.rest_advance, hRest, List.drop_one, List.tail_cons]
        omega
      have hLength' : (d.advance 1).rest.length ≤ bound' := by
        rw [Cursor.rest_advance, hRest', List.drop_one, List.tail_cons]
        omega
      simp only [moreArguments, hRest, hRest']
      refine (hInside _ _ (h.advance 1)).bind (fun a b hAgree ha hb => ?_)
        (late_moreArguments hForward _ _) (late_moreArguments hForward' _ _)
      exact ih (count + 1) hAgree (Nat.le_trans ((hForward _).ahead ha).length_le hLength)
        (Nat.le_trans ((hForward' _).ahead hb).length_le hLength')
    · rw [moreArguments_of_head hComma, moreArguments_of_head (by rwa [hHead])]
      exact .pure ⟨rfl, h⟩

theorem alike_call (f : Builtin) (start : Nat) (h : Agree n c d) :
    Alike n cut Cursor.position (Agree n) (call inside f start c) (call inside' f start d) := by
  rw [call_eq_callEnd, call_eq_callEnd]
  refine (hInside c d h).bind (fun c₁ d₁ hFirst _ _ => ?_)
    (fun c₁ => (late_moreArguments hForward _ _ c₁).bind fun _ => late_callEnd _ _ _ _)
    fun d₁ => (late_moreArguments hForward' _ _ d₁).bind fun _ => late_callEnd _ _ _ _
  refine (alike_moreArguments hInside hForward hForward' 1 hFirst (Nat.le_refl _) (Nat.le_refl _)).bind
    ?_ (fun _ => late_callEnd _ _ _ _) fun _ => late_callEnd _ _ _ _
  rintro ⟨count, c₂⟩ ⟨count', d₂⟩ ⟨hCount, hMore⟩ - -
  cases hCount
  exact alike_callEnd f start count hMore

theorem alike_wordAt (word : String) {start : Nat} (hStart : start ≤ c.position)
    (h : Agree n c d) :
    Alike n cut Cursor.position (Agree n) (wordAt inside word start c) (wordAt inside' word start d) := by
  have hPosition := h.position
  refine .of_near h (onward_wordAt hForward word hStart).late
    (onward_wordAt hForward' word (by omega)).late fun hNear => ?_
  have hConstant : Alike n cut Cursor.position (Agree n)
      (Reading.emit ⟨.constant word, start, c.position⟩ >>= fun _ => pure c)
      (Reading.emit ⟨.constant word, start, c.position⟩ >>= fun _ => pure d) :=
    .emit_pure _ h
  rcases h.cases (by omega) with ⟨hNil, hNil'⟩ | ⟨next, rest, rest', hRest, hRest', hAfter⟩
  · simpa only [wordAt, hNil, hNil', hPosition] using hConstant
  · by_cases hOpen : next = '('
    · subst hOpen
      simp only [wordAt, hRest, hRest', hPosition]
      split
      · exact .fail _
      · exact alike_call hInside hForward hForward' _ _ hAfter
    · rw [wordAt_of_head (by simpa [hRest] using hOpen), wordAt_of_head (by simpa [hRest'] using hOpen),
        ← hPosition]
      exact hConstant

theorem parallel_name : Parallel n cut (name inside) (name inside') := by
  intro c d h
  rw [name_eq_wordAt, name_eq_wordAt]
  rcases h.wordEnd with ⟨hWord, hEnd⟩ | ⟨hFar, hFar'⟩
  · rw [hWord, ← h.position]
    exact alike_wordAt hInside hForward hForward' _ c.ahead_wordEnd.position_le hEnd
  · refine .of_far (onward_name hForward c).late (onward_name hForward' d).late ?_ ?_ <;> omega

theorem parallel_primary : Parallel n cut (primary inside) (primary inside') := by
  intro c d h
  refine .of_near h ((forward_primary hForward).late c) ((forward_primary hForward').late d) fun hNear => ?_
  rcases h.cases (by omega) with ⟨hNil, hNil'⟩ | ⟨next, rest, rest', hRest, hRest', hAfter⟩
  · simp only [primary, hNil, hNil']
    exact .fail_at _ h
  · simp only [primary, hRest, hRest']
    split
    · exact parallel_name hInside hForward hForward' c d h
    · split
      · exact parallel_numeral c d h
      · split
        · exact alike_group hInside _ h
        · exact .fail_at _ h

theorem parallel_operand (negated : Bool) :
    Parallel n cut (operand inside negated) (operand inside' negated) := by
  have hNegation := (forward_negation negated).late
  intro c d h
  rw [operand, operand]
  refine (parallel_primary hInside hForward hForward' c d h).bind (fun c₁ d₁ hPrimary _ _ => ?_)
    (fun c₁ => (late_suffixes _ _ _).bind hNegation) fun d₁ => (late_suffixes _ _ _).bind hNegation
  obtain ⟨position, rest⟩ := c₁
  obtain ⟨position', rest'⟩ := d₁
  obtain rfl : position = position' := hPrimary.position
  exact (alike_suffixes negated hPrimary).bind
    (fun c₂ d₂ hSuffixes _ _ => parallel_negation negated c₂ d₂ hSuffixes) hNegation hNegation

theorem parallel_factor : Parallel n cut (factor inside) (factor inside') := by
  rintro ⟨position, rest⟩ ⟨position', rest'⟩ h
  obtain rfl : position = position' := h.position
  rw [factor_eq_operand, factor_eq_operand]
  rcases agree_minusSigns false h with ⟨hSign, hAfter⟩ | ⟨hFar, hFar'⟩
  · rw [hSign]
    exact parallel_operand hInside hForward hForward' _ _ _ hAfter
  · refine .of_far ((forward_operand hForward _).late _) ((forward_operand hForward' _).late _) ?_ ?_ <;>
      dsimp only <;> omega

theorem parallel_powerOf (hExponent : Parallel n cut exponent exponent')
    (hExponentForward : Forward exponent) (hExponentForward' : Forward exponent') :
    Parallel n cut (powerOf inside exponent) (powerOf inside' exponent') := by
  intro c d h
  rw [powerOf_eq_powerEnd, powerOf_eq_powerEnd]
  exact (parallel_factor hInside hForward hForward' c d h).bind
    (fun c₁ d₁ hEnd _ _ => parallel_powerEnd hExponent hExponentForward hExponentForward' c₁ d₁ hEnd)
    ((forward_powerEnd hExponentForward).late) ((forward_powerEnd hExponentForward').late)

end Inside

/-- Two characters tell which operator stands at the cursor. -/
def Short (operator? : List Char → Option (Operator × Nat)) : Prop :=
  ∀ text text', text.take 2 = text'.take 2 → operator? text = operator? text'

theorem short_productOperator? : Short productOperator? := by
  intro text text' h
  have hTake (text : List Char) : productOperator? (text.take 2) = productOperator? text := by
    rcases text with _ | ⟨a, _ | ⟨b, rest⟩⟩
    · rfl
    · rfl
    · by_cases hTimes : a = 'x'
      · subst hTimes
        rfl
      · by_cases hSlash : a = '/'
        · subst hSlash
          by_cases hDouble : b = '/'
          · subst hDouble
            rfl
          · simp [productOperator?, hDouble]
        · simp [productOperator?, hTimes, hSlash]
  rw [← hTake text, ← hTake text', h]

theorem short_sumOperator? : Short sumOperator? := by
  intro text text' h
  have hTake (text : List Char) : sumOperator? (text.take 2) = sumOperator? text := by
    rcases text with _ | ⟨a, rest⟩
    · rfl
    · by_cases hPlus : a = '+'
      · subst hPlus
        rfl
      · by_cases hMinus : a = '-'
        · subst hMinus
          rfl
        · simp [sumOperator?, hPlus, hMinus]
  rw [← hTake text, ← hTake text', h]

theorem Short.eq_of_agree {operator? : List Char → Option (Operator × Nat)} (hShort : Short operator?)
    (h : Agree n c d) (hNear : c.position + 2 < n) : operator? d.rest = operator? c.rest := by
  have hTake := congrArg (List.take 2) h.rest
  rw [List.take_take, List.take_take, Nat.min_eq_left (by omega)] at hTake
  exact hShort _ _ hTake.symm

section Chains

variable {operator? : List Char → Option (Operator × Nat)} {reader reader' : Reader}

theorem parallel_links (hShort : Short operator?) (hStanding : Standing operator?)
    (hReader : Parallel n cut reader reader') (hForward : Forward reader) (hForward' : Forward reader')
    {bound bound' : Nat} (h : Agree n c d) (hBound : c.rest.length ≤ bound)
    (hBound' : d.rest.length ≤ bound') :
    Alike n cut Cursor.position (Agree n) (links operator? reader bound c)
      (links operator? reader' bound' d) := by
  have hLate {reader : Reader} (hForward : Forward reader) (bound : Nat) :=
    (forward_links hStanding hForward bound).late
  induction bound generalizing bound' c d with
  | zero =>
    refine .of_near h (hLate hForward _ c) (hLate hForward' _ d) fun hNear => ?_
    have hNone : operator? c.rest = none := by
      rw [List.length_eq_zero_iff.mp (Nat.le_zero.mp hBound)]
      exact hStanding.nil
    have hNone' : operator? d.rest = none := (hShort.eq_of_agree h hNear).trans hNone
    rw [links_of_none hNone, links_of_none hNone']
    exact .pure h
  | succ bound ih =>
    refine .of_near h (hLate hForward _ c) (hLate hForward' _ d) fun hNear => ?_
    have hSame := hShort.eq_of_agree h hNear
    cases hFound : operator? c.rest with
    | none =>
      rw [links_of_none hFound, links_of_none (hSame.trans hFound)]
      exact .pure h
    | some found =>
      obtain ⟨op, width⟩ := found
      have hFound' := hSame.trans hFound
      obtain ⟨hWidth, hLength⟩ := hStanding _ _ _ hFound
      obtain ⟨-, hLength'⟩ := hStanding _ _ _ hFound'
      obtain ⟨bound', rfl⟩ : ∃ k, bound' = k + 1 := ⟨bound' - 1, by omega⟩
      have hRest : (c.advance width).rest.length ≤ bound := by
        rw [Cursor.rest_advance, List.length_drop]
        omega
      have hRest' : (d.advance width).rest.length ≤ bound' := by
        rw [Cursor.rest_advance, List.length_drop]
        omega
      have hMore {reader : Reader} (hForward : Forward reader) (bound : Nat) (c : Cursor) :
          Late c.position Cursor.position (c.emit (.binary op) >>= fun _ => links operator? reader bound c) :=
        ((Reading.onward_note _).bind fun _ _ => forward_links hStanding hForward bound c).late
      simp only [links, hFound, hFound']
      refine (hReader _ _ (h.advance width)).bind (fun a b hEnd ha hb => ?_) (hMore hForward bound)
        (hMore hForward' bound')
      simp only [Cursor.emit, hEnd.position]
      refine (Alike.emit _).bind (fun _ _ _ _ _ => ?_) (fun _ => hLate hForward bound a)
        fun _ => (hLate hForward' bound' b).mono hEnd.position.le
      exact ih hEnd (Nat.le_trans ((hForward _).ahead ha).length_le hRest)
        (Nat.le_trans ((hForward' _).ahead hb).length_le hRest')

theorem parallel_chain (hShort : Short operator?) (hStanding : Standing operator?)
    (hReader : Parallel n cut reader reader') (hForward : Forward reader) (hForward' : Forward reader') :
    Parallel n cut (chain operator? reader) (chain operator? reader') :=
  fun c d h => (hReader c d h).bind
    (fun _ _ hEnd _ _ => parallel_links hShort hStanding hReader hForward hForward' hEnd (Nat.le_refl _)
      (Nat.le_refl _))
    (fun _ => (forward_links hStanding hForward _).late _)
    fun _ => (forward_links hStanding hForward' _).late _

end Chains

theorem parallel_sumsOf {power power' : Reader} (hPower : Parallel n cut power power')
    (hForward : Forward power) (hForward' : Forward power') :
    Parallel n cut (sumsOf power) (sumsOf power') :=
  parallel_chain short_sumOperator? standing_sumOperator?
    (parallel_chain short_productOperator? standing_productOperator? hPower hForward hForward')
    (forward_chain standing_productOperator? hForward) (forward_chain standing_productOperator? hForward')

end Readers

/-! ## Readers of expressions -/

/-- Limits on nesting to compare: one and the same, or a narrower one, whose complaint may cut a
    reading short, and a wider one. -/
inductive Narrower : Option Cause → Cause → Nat → Cause → Nat → Prop
  | same (cut : Option Cause) (deep : Cause) (levels : Nat) : Narrower cut deep levels deep levels
  | cut (deep deep' : Cause) {levels levels' : Nat} (h : levels ≤ levels') :
      Narrower (some deep) deep levels deep' levels'

section Limits

variable {n : Nat} {cut : Option Cause} {deep deep' : Cause} {levels levels' : Nat}

theorem Narrower.succ {room room' : Nat} (h : Narrower cut deep (room + 1) deep' room') :
    ∃ less, room' = less + 1 ∧ Narrower cut deep room deep' less := by
  cases h with
  | same cut deep => exact ⟨room, rfl, .same cut deep room⟩
  | cut deep deep' h => exact ⟨room' - 1, by omega, .cut deep deep' (by omega)⟩

theorem parallel_powerWithin {room room' : Nat} (h : Narrower cut deep room deep' room') :
    Parallel n cut (powerWithin deep room) (powerWithin deep' room') := by
  induction room generalizing room' with
  | zero =>
    cases h with
    | same cut deep => exact parallel_refuse deep
    | cut deep deep' h => exact parallel_cut (forward_powerWithin deep' room')
  | succ room ih =>
    obtain ⟨less, rfl, hLess⟩ := h.succ
    have hPower := forward_powerWithin deep room
    have hPower' := forward_powerWithin deep' less
    rw [powerWithin_succ, powerWithin_succ, expression_eq_sumsOf, expression_eq_sumsOf]
    exact parallel_powerOf (parallel_sumsOf (ih hLess) hPower hPower') (forward_sumsOf hPower)
      (forward_sumsOf hPower') (ih hLess) hPower hPower'

theorem parallel_expression (h : Narrower cut deep levels deep' levels') :
    Parallel n cut (expression deep levels) (expression deep' levels') := by
  rw [expression_eq_sumsOf, expression_eq_sumsOf]
  exact parallel_sumsOf (parallel_powerWithin h) (forward_powerWithin deep levels)
    (forward_powerWithin deep' levels')

theorem parallel_textEnd : Parallel n cut textEnd textEnd := by
  intro c d h
  refine .of_near h (forward_textEnd.late c) (forward_textEnd.late d) fun hNear => ?_
  rcases h.cases (by omega) with ⟨hNil, hNil'⟩ | ⟨next, rest, rest', hRest, hRest', hAfter⟩
  · simp only [textEnd, hNil, hNil']
    exact .pure h
  · simp only [textEnd, hRest, hRest']
    exact .fail_at _ h

theorem parallel_readWithin (h : Narrower cut deep levels deep' levels') :
    Parallel n cut (readWithin deep levels) (readWithin deep' levels') :=
  fun c d hAgree => (parallel_expression h c d hAgree).bind
    (fun _ _ hEnd _ _ => parallel_textEnd _ _ hEnd) (fun _ => forward_textEnd.late _)
    fun _ => forward_textEnd.late _

end Limits

end Reckon.Expression
