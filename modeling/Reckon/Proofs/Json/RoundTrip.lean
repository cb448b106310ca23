import Reckon.Proofs.Json.Numbers

/-! # Documents are read as they were written

What is printed of a document whose numbers are finite is ASCII and is read as the meaning of the document.
-/
namespace Reckon.Json
set_option autoImplicit false
open Reader

/-- What holds of a document if it holds of its parts. -/
theorem induction {P : Json → Prop} (hInteger : ∀ n, P (.integer n))
    (hFloat : ∀ x, P (.float x)) (hText : ∀ s, P (.text s))
    (hArray : ∀ items, (∀ item ∈ items, P item) → P (.array items))
    (hObject : ∀ members : List (String × Json), (∀ member ∈ members, P member.2) → P (.object members))
    (document : Json) : P document :=
  @Json.rec P (fun items => ∀ item ∈ items, P item) (fun members => ∀ member ∈ members, P member.2)
    (fun member => P member.2) hInteger hFloat hText hArray hObject (by simp)
    (fun _ _ hItem hItems => List.forall_mem_cons.mpr ⟨hItem, hItems⟩) (by simp)
    (fun _ _ hMember hMembers => List.forall_mem_cons.mpr ⟨hMember, hMembers⟩) (fun _ _ hValue => hValue) document

/-! ## Meanings -/

/-- No number in the document is infinite or none. -/
inductive Finite : Json → Prop
  | integer (n : Int) : Finite (.integer n)
  | float {x : Float} (hFinite : x.isFinite = true) : Finite (.float x)
  | text (s : String) : Finite (.text s)
  | array {items : List Json} (hItems : ∀ item ∈ items, Finite item) : Finite (.array items)
  | object {members : List (String × Json)} (hMembers : ∀ member ∈ members, Finite member.2) :
      Finite (.object members)

mutual

/-- The value that a document is read as. -/
def meaning : Json → Value
  | integer n => .number (n < 0) ⟨n.natAbs, 0⟩
  | float x => .number (Binary64.negative x) (numeral x).value
  | text s => .text s
  | array items => .array (meanings items)
  | object members => .object (memberMeanings members)

def meanings : List Json → List Value
  | [] => []
  | item :: items => item.meaning :: meanings items

def memberMeanings : List (String × Json) → List (String × Value)
  | [] => []
  | (name, value) :: members => (name, value.meaning) :: memberMeanings members

end

def memberMeaning (member : String × Json) : String × Value := (member.1, member.2.meaning)

theorem meanings_eq_map (items : List Json) : meanings items = items.map meaning := by
  induction items with
  | nil => rfl
  | cons item items ih => rw [meanings, ih]; rfl

theorem memberMeanings_eq_map (members : List (String × Json)) :
    memberMeanings members = members.map memberMeaning := by
  induction members with
  | nil => rfl
  | cons member members ih => rw [memberMeanings, ih]; rfl

/-! ## Elements between marks -/

section Elements

variable {α β : Type} (level : Nat) (write : α → List Char)

/-- Elements behind commas, each on a line of its own. -/
def laterText (xs : List α) : List Char := xs.flatMap fun x => ',' :: (newLine level ++ write x)

/-- Elements between an opening and a closing mark. -/
def elementsText (opener closer : Char) : List α → List Char
  | [] => [opener, closer]
  | x :: xs =>
    opener :: (newLine (level + 1) ++ write x ++ laterText (level + 1) write xs ++ newLine level ++ [closer])

theorem length_laterText (xs : List α) :
    xs.length ≤ (laterText level write xs).length ∧
      ∀ x ∈ xs, (write x).length ≤ (laterText level write xs).length := by
  induction xs with
  | nil => simp
  | cons x xs ih =>
    simp only [laterText, List.flatMap_cons, List.length_append, List.length_cons, List.forall_mem_cons]
    rw [laterText] at ih
    refine ⟨by omega, by omega, fun y hMember => ?_⟩
    have hShort := ih.2 y hMember
    omega

variable {level write} in
/-- Elements are shorter than what they stand in, and there are not more of them than characters. -/
theorem length_elementsText {opener closer : Char} {xs : List α} {bound : Nat}
    (h : (elementsText level write opener closer xs).length < bound + 1) :
    xs.length ≤ bound ∧ ∀ x ∈ xs, (write x).length < bound := by
  cases xs with
  | nil => simp
  | cons x xs =>
    obtain ⟨hCount, hShort⟩ := length_laterText (level + 1) write xs
    simp only [elementsText, List.length_append, List.length_cons, List.length_nil] at h
    simp only [List.length_cons, List.forall_mem_cons]
    refine ⟨by omega, by omega, fun y hMember => ?_⟩
    have hLater := hShort y hMember
    omega

end Elements

def renderEntry (level : Nat) (member : String × Json) : List Char := renderMember level member.1 member.2

theorem renderItems_eq (level : Nat) (items : List Json) :
    renderItems level items = laterText level (render level) items := by
  induction items with
  | nil => rw [renderItems]; rfl
  | cons item items ih => rw [renderItems, ih]; rfl

theorem renderMembers_eq (level : Nat) (members : List (String × Json)) :
    renderMembers level members = laterText level (renderEntry level) members := by
  induction members with
  | nil => rw [renderMembers]; rfl
  | cons member members ih => rw [renderMembers, ih]; rfl

theorem render_array (level : Nat) (items : List Json) :
    (Json.array items).render level = elementsText level (render (level + 1)) '[' ']' items := by
  cases items with
  | nil => rw [render]; rfl
  | cons item items => rw [render, renderItems_eq]; rfl

theorem render_object (level : Nat) (members : List (String × Json)) :
    (Json.object members).render level = elementsText level (renderEntry (level + 1)) '{' '}' members := by
  cases members with
  | nil => rw [render]; rfl
  | cons member members => rw [render, renderMembers_eq]; rfl

/-! ## ASCII -/

theorem ascii_newLine (level : Nat) : (newLine level).all isAscii = true := by
  rw [newLine, List.all_cons, List.all_replicate]
  split <;> rfl

theorem ascii_laterText {α : Type} {level : Nat} {write : α → List Char} {xs : List α}
    (h : ∀ x ∈ xs, (write x).all isAscii = true) : (laterText level write xs).all isAscii = true := by
  rw [laterText, List.all_flatMap, List.all_eq_true]
  intro x hMember
  rw [List.all_cons, List.all_append, ascii_newLine, h x hMember]
  rfl

theorem ascii_elementsText {α : Type} {level : Nat} {write : α → List Char} {opener closer : Char} {xs : List α}
    (hOpener : isAscii opener = true) (hCloser : isAscii closer = true)
    (h : ∀ x ∈ xs, (write x).all isAscii = true) :
    (elementsText level write opener closer xs).all isAscii = true := by
  cases xs with
  | nil => simp [elementsText, hOpener, hCloser]
  | cons x xs =>
    obtain ⟨hFirst, hLater⟩ := List.forall_mem_cons.mp h
    simp [elementsText, -List.all_eq_true, hOpener, hCloser, ascii_newLine, hFirst, ascii_laterText hLater]

/-- What is printed of a document whose numbers are finite is ASCII. -/
theorem ascii_render (document : Json) (h : document.Finite) (level : Nat) :
    (document.render level).all isAscii = true := by
  induction document using Json.induction generalizing level with
  | hInteger n =>
    rw [render, toString_eq_signedText]
    exact (allowed_integerNumeral _).ascii _
  | hFloat x =>
    cases h with
    | float hFinite =>
      rw [render, exact_eq_signedText hFinite]
      exact (allowed_numeral_finite hFinite).ascii _
  | hText s => rw [render]; exact ascii_quoted s
  | hArray items ih =>
    cases h with
    | array hItems =>
      rw [render_array]
      exact ascii_elementsText rfl rfl fun item hMember => ih item hMember (hItems item hMember) _
  | hObject members ih =>
    cases h with
    | object hMembers =>
      rw [render_object]
      refine ascii_elementsText rfl rfl fun member hMember => ?_
      rw [renderEntry, renderMember, List.all_append, ascii_quoted, List.all_cons, List.all_cons,
        ih member hMember (hMembers member hMember)]
      rfl

/-! ## Reading -/

theorem skip_newLine (level : Nat) (input : List Char) : skip (newLine level ++ input) = skip input := by
  have hBlank : ∀ c ∈ newLine level, isBlank c = true := by
    intro c hMember
    rcases List.mem_cons.mp hMember with rfl | hSpace
    · rfl
    · rw [List.eq_of_mem_replicate hSpace]
      rfl
  exact List.dropWhile_append_of_pos hBlank

theorem value?_congr {input other : List Char} (h : skip input = skip other) (bound : Nat) :
    value? bound input = value? bound other := by
  cases bound with
  | zero => rfl
  | succ bound => rw [value?, value?, h]

theorem member?_newLine (value? : List Char → Option (Value × List Char)) (level : Nat) (input : List Char) :
    member? value? (newLine level ++ input) = member? value? input := by
  rw [member?, member?, skip_newLine]

theorem stops_newLine (level : Nat) (input : List Char) : Stops (newLine level ++ input) := by
  rintro c ⟨⟩
  rfl

section Elements

variable {α β : Type} {level bound : Nat} {write : α → List Char} {means : α → β}
  {element? : List Char → Option (β × List Char)}

theorem stops_laterText {xs : List α} {rest : List Char} (h : Stops rest) :
    Stops (laterText level write xs ++ rest) := by
  cases xs with
  | nil => exact h
  | cons x xs =>
    rintro c ⟨⟩
    rfl

/-- The reader of elements undoes their writing, whatever stops the element. -/
def Restores (level : Nat) (write : α → List Char) (element? : List Char → Option (β × List Char))
    (means : α → β) (x : α) : Prop :=
  ∀ rest, Stops rest → element? (newLine level ++ (write x ++ rest)) = some (means x, rest)

theorem later?_laterText {outer : Nat} {closer : Char} (hCloser : closer = ']' ∨ closer = '}') {xs : List α}
    (hBound : xs.length < bound) (h : ∀ x ∈ xs, Restores level write element? means x) (rest : List Char) :
    later? closer element? bound (laterText level write xs ++ (newLine outer ++ closer :: rest)) =
      some (xs.map means, rest) := by
  induction xs generalizing bound with
  | nil =>
    obtain ⟨bound, rfl⟩ := Nat.exists_eq_succ_of_ne_zero (Nat.pos_iff_ne_zero.mp hBound)
    have hSkip : skip (closer :: rest) = closer :: rest := by
      rcases hCloser with rfl | rfl <;> rfl
    change later? closer element? (bound + 1) (newLine outer ++ closer :: rest) = _
    rw [later?, skip_newLine, hSkip]
    exact if_pos rfl
  | cons x xs ih =>
    obtain ⟨bound, rfl⟩ := Nat.exists_eq_succ_of_ne_zero (Nat.ne_zero_of_lt hBound)
    obtain ⟨hFirst, hLater⟩ := List.forall_mem_cons.mp h
    have hComma : ',' ≠ closer := by
      rcases hCloser with rfl | rfl <;> decide
    have hText : laterText level write (x :: xs) ++ (newLine outer ++ closer :: rest) =
        ',' :: (newLine level ++ (write x ++ (laterText level write xs ++ (newLine outer ++ closer :: rest)))) := by
      simp [laterText]
    have hRead := hFirst (laterText level write xs ++ (newLine outer ++ closer :: rest))
      (stops_laterText (stops_newLine outer _))
    change later? closer element? (bound + 1) _ = _
    rw [hText, later?]
    change (if ',' = closer then _ else if ',' = ',' then _ else _) = _
    rw [if_neg hComma, if_pos rfl, hRead, Option.bind_eq_bind, Option.bind_some]
    dsimp only
    rw [ih (by simpa using hBound) hLater]
    rfl

/-- All elements between two marks are read. -/
theorem elements?_elementsText (opener : Char) {closer : Char}
    (hCloser : closer = ']' ∨ closer = '}') {xs : List α}
    (hBound : xs.length ≤ bound) (hNone : ∀ rest, element? (closer :: rest) = none)
    (h : ∀ x ∈ xs, Restores (level + 1) write element? means x) (rest : List Char) :
    ∃ text, elementsText level write opener closer xs ++ rest = opener :: text ∧
      elements? closer element? bound text = some (xs.map means, rest) := by
  cases xs with
  | nil =>
    refine ⟨closer :: rest, rfl, ?_⟩
    have hSkip : skip (closer :: rest) = closer :: rest := by
      rcases hCloser with rfl | rfl <;> rfl
    rw [elements?, hNone, hSkip]
    exact if_pos rfl
  | cons x xs =>
    obtain ⟨hFirst, hLater⟩ := List.forall_mem_cons.mp h
    refine ⟨newLine (level + 1) ++ (write x ++ (laterText (level + 1) write xs ++ (newLine level ++ closer :: rest))),
      by simp [elementsText], ?_⟩
    rw [elements?, hFirst _ (stops_laterText (stops_newLine level _))]
    dsimp only
    rw [later?_laterText hCloser hBound hLater]
    rfl

end Elements

theorem value?_bracket (bound : Nat) (rest : List Char) : value? bound (']' :: rest) = none := by
  cases bound <;> rfl

theorem member?_brace (value? : List Char → Option (Value × List Char)) (rest : List Char) :
    member? value? ('}' :: rest) = none := rfl

theorem quoted_append (s : String) (rest : List Char) :
    quoted s ++ rest = '"' :: (s.toList.flatMap escaped ++ '"' :: rest) := by
  simp [quoted]

/-- A member is read if its value is. -/
theorem restores_entry {level bound : Nat} {member : String × Json}
    (h : ∀ rest, Stops rest →
      value? bound (member.2.render level ++ rest) = some (member.2.meaning, rest)) :
    Restores level (renderEntry level) (member? (value? bound)) memberMeaning member := by
  intro rest hRest
  have hText : renderEntry level member ++ rest =
      '"' :: (member.1.toList.flatMap escaped ++ '"' :: ':' :: ' ' :: (member.2.render level ++ rest)) := by
    rw [renderEntry, renderMember, List.append_assoc, quoted_append]
    rfl
  have hSkip : skip (' ' :: (member.2.render level ++ rest)) = skip (member.2.render level ++ rest) := rfl
  have hValue : value? bound (' ' :: (member.2.render level ++ rest)) = some (member.2.meaning, rest) := by
    rw [value?_congr hSkip, h rest hRest]
  rw [member?_newLine, hText]
  change (string? _).bind _ = _
  rw [string?_quoted, Option.bind_some]
  change (value? bound (' ' :: (member.2.render level ++ rest))).bind _ = _
  rw [hValue]
  rfl

section Parts

variable {level bound : Nat} {rest : List Char}

/-- An array is read if its items are. Behind the opening mark the bound is one less. -/
theorem value?_array {items : List Json} (hCount : items.length ≤ bound)
    (h : ∀ item ∈ items, Restores (level + 1) (render (level + 1)) (value? bound) meaning item) :
    value? (bound + 1) ((Json.array items).render level ++ rest) = some ((Json.array items).meaning, rest) := by
  obtain ⟨text, hText, hRead⟩ := elements?_elementsText '[' (.inl rfl) hCount (value?_bracket bound) h rest
  rw [render_array, hText]
  change (elements? ']' (value? bound) bound text).map _ = _
  rw [hRead, meaning, meanings_eq_map]
  rfl

/-- An object is read if its members are. -/
theorem value?_object {members : List (String × Json)} (hCount : members.length ≤ bound)
    (h : ∀ member ∈ members,
      Restores (level + 1) (renderEntry (level + 1)) (member? (value? bound)) memberMeaning member) :
    value? (bound + 1) ((Json.object members).render level ++ rest) =
      some ((Json.object members).meaning, rest) := by
  obtain ⟨text, hText, hRead⟩ :=
    elements?_elementsText '{' (.inr rfl) hCount (member?_brace (value? bound)) h rest
  rw [render_object, hText]
  change (elements? '}' (member? (value? bound)) bound text).map _ = _
  rw [hRead, meaning, memberMeanings_eq_map]
  rfl

theorem length_render_lt {member : String × Json} (h : (renderEntry level member).length < bound) :
    (member.2.render level).length < bound := by
  rw [renderEntry, renderMember, List.length_append, List.length_cons, List.length_cons] at h
  omega

end Parts

/-- What is written of a document is read as its meaning, whatever stops it. -/
theorem value?_render (document : Json) (h : document.Finite) {level bound : Nat}
    (hBound : (document.render level).length < bound) {rest : List Char} (hRest : Stops rest) :
    value? bound (document.render level ++ rest) = some (document.meaning, rest) := by
  obtain ⟨bound, rfl⟩ := Nat.exists_eq_succ_of_ne_zero (Nat.ne_zero_of_lt hBound)
  induction document using Json.induction generalizing level bound rest with
  | hInteger n =>
    rw [render, toString_eq_signedText, (allowed_integerNumeral _).value? hRest, value_integerNumeral]
    rfl
  | hFloat x =>
    cases h with
    | float hFinite =>
      rw [render, exact_eq_signedText hFinite, (allowed_numeral_finite hFinite).value? hRest]
      rfl
  | hText s =>
    rw [render, quoted_append]
    change (string? _).map _ = _
    rw [string?_quoted]
    rfl
  | hArray items ih =>
    cases h with
    | array hItems =>
      rw [render_array] at hBound
      obtain ⟨hCount, hShort⟩ := length_elementsText hBound
      refine value?_array hCount fun item hMember rest hRest => ?_
      have hItem := hShort item hMember
      obtain ⟨bound, rfl⟩ := Nat.exists_eq_succ_of_ne_zero (Nat.ne_zero_of_lt hItem)
      rw [value?_congr (skip_newLine _ _)]
      exact ih item hMember (hItems item hMember) hRest bound hItem
  | hObject members ih =>
    cases h with
    | object hMembers =>
      rw [render_object] at hBound
      obtain ⟨hCount, hShort⟩ := length_elementsText hBound
      refine value?_object hCount fun member hMember => restores_entry fun rest hRest => ?_
      have hValue := length_render_lt (hShort member hMember)
      obtain ⟨bound, rfl⟩ := Nat.exists_eq_succ_of_ne_zero (Nat.ne_zero_of_lt hValue)
      exact ih member hMember (hMembers member hMember) hRest bound hValue

/-- Reading undoes printing: all that is printed is one document, and it says what was meant. -/
theorem read?_print {document : Json} (h : document.Finite) :
    read? (document.print ++ "\n").toList = some document.meaning := by
  have hText : (document.print ++ "\n").toList = document.render 0 ++ ['\n'] := by
    simp [print]
  have hStops : Stops ['\n'] := by
    rintro c ⟨⟩
    rfl
  rw [hText, read?, value?_render document h (by simp) hStops]
  rfl

/-- Not everything is read: a word, a leading zero, a bare point, a comma too many, half of a pair. -/
example : ["[NaN]", "[01]", "[1.]", "[1,]", "\"\\ud83d\""].all (fun text => (read? text.toList).isNone) = true := by
  decide +kernel

theorem ascii_print {document : Json} (h : document.Finite) :
    (document.print ++ "\n").toList.all isAscii = true := by
  simp only [print, String.toList_append, String.toList_ofList, List.all_append, ascii_render document h]
  rfl

end Reckon.Json
