import Mathlib.Data.List.TakeWhile
import Reckon.Proofs.Page.Line
import Reckon.Report

/-! # Escaped text is shown as it is

Escaping puts a backslash before every bracket that would open a tag. The tags of the escaped text are those of the
text, each with its backslash, so none of them is taken for a style and the reader sees the text. A backslash of the
text's own must not stand before a bracket: it would be taken for one of those.
-/
namespace Reckon.Page
set_option autoImplicit false

variable {c : Char} {text more body after : List Char} {pending : Nat}

/-- Behind each backslash stands a character other than an opening bracket. -/
def guarded : List Char → Bool
  | [] => true
  | c :: text => (c != '\\' || text.head?.any (· != '[')) && guarded text

theorem guarded_cons : guarded (c :: text) = true ↔
    (c = '\\' → ∃ next ∈ text.head?, next ≠ '[') ∧ guarded text = true := by
  have hNext : text.head?.any (· != '[') = true ↔ ∃ next ∈ text.head?, next ≠ '[' := by
    cases text <;> simp
  rw [guarded, Bool.and_eq_true, Bool.or_eq_true, bne_iff_ne, hNext, ne_eq, ← imp_iff_not_or]

theorem guarded_of_not_mem (h : '\\' ∉ text) : guarded text = true := by
  induction text with
  | nil => rfl
  | cons c text ih =>
    rw [List.mem_cons, not_or] at h
    exact guarded_cons.mpr ⟨fun hSlash => absurd hSlash.symm h.1, ih h.2⟩

theorem guarded_append (h : guarded text = true) (hMore : guarded more = true) :
    guarded (text ++ more) = true := by
  induction text with
  | nil => exact hMore
  | cons c text ih =>
    obtain ⟨hFirst, hText⟩ := guarded_cons.mp h
    refine guarded_cons.mpr ⟨fun hSlash => ?_, ih hText⟩
    obtain ⟨next, hNext, hOther⟩ := hFirst hSlash
    exact ⟨next, by simp [Option.mem_def.mp hNext], hOther⟩

theorem guarded_of_append (h : guarded (text ++ more) = true) : guarded more = true := by
  induction text with
  | nil => exact h
  | cons c text ih => exact ih (guarded_cons.mp h).2

theorem getLast?_of_guarded (h : guarded text = true) : text.getLast? ≠ some '\\' := by
  induction text with
  | nil => simp
  | cons c text ih =>
    obtain ⟨hFirst, hText⟩ := guarded_cons.mp h
    cases text with
    | nil =>
      intro hSlash
      obtain ⟨next, hNext, -⟩ := hFirst (by simpa using hSlash)
      cases hNext
    | cons d text =>
      rw [List.getLast?_cons_cons]
      exact ih hText

/-! ## Tokens, character by character -/

/-- The next bracket behind the body of a tag closes the tag. -/
def endsTag (text : List Char) : Bool := (text.dropWhile inTag).head? == some ']'

theorem endsTag_cons : endsTag (c :: text) = if inTag c then endsTag text else c == ']' := by
  unfold endsTag
  split <;> simp_all

theorem endsTag_backslashes (n : Nat) : endsTag (backslashes n ++ text) = endsTag text := by
  induction n with
  | zero => rfl
  | succ n ih =>
    rw [backslashes, List.replicate_succ, List.cons_append, endsTag_cons, if_pos (by decide), ← ih, backslashes]

theorem tagBody?_cons_eq_none_iff :
    tagBody? (c :: text) = none ↔ (startsTag c = true → endsTag text = false) := by
  simp only [tagBody?, endsTag]
  split
  · rename_i hStart
    split
    · rename_i hEnd
      simp [hStart, hEnd]
    · rename_i hEnd
      simp only [hStart, forall_const, true_iff]
      cases hDrop : text.dropWhile inTag with
      | nil => rfl
      | cons d rest =>
        have hOther : d ≠ ']' := by
          rintro rfl
          exact hEnd rest hDrop
        simpa using hOther
  · rename_i hStart
    simp [hStart]

/-- The body of a tag is one before any text. -/
theorem tagBody?_body (h : tagBody? text = some (body, after)) (more : List Char) :
    tagBody? (body ++ ']' :: more) = some (body, more) := by
  cases text with
  | nil => cases h
  | cons first text =>
    simp only [tagBody?] at h
    split at h
    · rename_i hStart
      split at h
      · cases h
        have hRun : ∀ c ∈ text.takeWhile inTag, inTag c = true := fun c => List.mem_takeWhile_imp
        have hClose : inTag ']' = false := rfl
        simp only [List.cons_append, tagBody?, hStart, if_true, List.dropWhile_append_of_pos hRun,
          List.takeWhile_append_of_pos hRun, List.dropWhile_cons, List.takeWhile_cons, hClose,
          Bool.false_eq_true, if_false, List.append_nil]
      · cases h
    · cases h

theorem tokens_slash : tokens pending ('\\' :: text) = tokens (pending + 1) text := by
  rw [tokens]
  exact if_pos rfl

theorem tokens_tag (h : tagBody? text = some (body, after)) :
    tokens pending ('[' :: text) = .tag pending body :: tokens 0 after := by
  rw [tokens]
  simp only [if_neg (show ¬ '[' = '\\' by decide), if_true]
  split
  · rename_i hBody
    rw [h] at hBody
    cases hBody
    rfl
  · rename_i hBody
    rw [h] at hBody
    cases hBody

theorem tokens_bracket (h : tagBody? text = none) :
    tokens pending ('[' :: text) = .bracket pending :: tokens 0 text := by
  rw [tokens]
  simp only [if_neg (show ¬ '[' = '\\' by decide), if_true]
  split
  · rename_i hBody
    rw [h] at hBody
    cases hBody
  · rfl

theorem tokens_char (hSlash : c ≠ '\\') (hBracket : c ≠ '[') : tokens pending (c :: text) =
    (if pending = 0 then [] else [.slashes pending]) ++ .char c :: tokens 0 text := by
  rw [tokens]
  simp only [if_neg hSlash, if_neg hBracket]

theorem tokens_backslashes (n : Nat) : tokens pending (backslashes n ++ text) = tokens (pending + n) text := by
  induction n generalizing pending with
  | zero => rfl
  | succ n ih =>
    rw [backslashes, List.replicate_succ, List.cons_append, tokens_slash, ← backslashes, ih, Nat.add_assoc,
      Nat.add_comm 1 n]

/-- What holds of a text if it holds of what is left behind its first token. -/
theorem tokens_induction {motive : Nat → List Char → Prop} (nil : ∀ pending, motive pending [])
    (slash : ∀ pending text, motive (pending + 1) text → motive pending ('\\' :: text))
    (tag : ∀ pending body after, tagBody? (body ++ ']' :: after) = some (body, after) → motive 0 after →
      motive pending ('[' :: (body ++ ']' :: after)))
    (bracket : ∀ pending text, tagBody? text = none → motive 0 text → motive pending ('[' :: text))
    (char : ∀ pending c text, c ≠ '\\' → c ≠ '[' → motive 0 text → motive pending (c :: text))
    (pending : Nat) (text : List Char) : motive pending text := by
  fun_induction tokens pending text with
  | case1 pending => exact nil pending
  | case2 pending text ih => exact slash pending text ih
  | case3 pending text body after hBody hLess flushed ih =>
    obtain rfl := eq_of_tagBody? hBody
    exact tag pending body after hBody ih
  | case4 pending text _ hBody ih => exact bracket pending text ‹_› ih
  | case5 pending flushed c text hSlash hBracket ih => exact char pending c text hSlash hBracket ih

/-! ## Escaped tokens -/

/-- An escaped tag is the tag behind more backslashes. -/
def Token.raised : Token → Token
  | tag n body => tag (2 * n + 1) body
  | token => token

/-- No backslashes stand before the brackets. -/
def Token.Bare : Token → Prop
  | bracket n | tag n _ => n = 0
  | char _ | slashes _ => True

/-- A tag that is taken for a style. -/
def Token.style? : Token → Option (List Char)
  | tag n body => if n % 2 = 0 then some body else none
  | _ => none

def escapedTokens (pending : Nat) (text : List Char) : List Char := (tokens pending text).flatMap Token.escaped

theorem flatMap_flushed {write : Token → List Char} (h : ∀ n, write (.slashes n) = backslashes n) :
    (if pending = 0 then [] else [Token.slashes pending]).flatMap write = backslashes pending := by
  split
  · rename_i hZero
    rw [hZero]
    rfl
  · simp [h]

theorem escapedTokens_nil : escapedTokens pending [] = backslashes pending := by
  rw [escapedTokens, tokens]
  exact flatMap_flushed fun _ => rfl

theorem escapedTokens_slash : escapedTokens pending ('\\' :: text) = escapedTokens (pending + 1) text := by
  rw [escapedTokens, tokens_slash]
  rfl

theorem escapedTokens_tag (h : tagBody? text = some (body, after)) : escapedTokens pending ('[' :: text) =
    backslashes (2 * pending + 1) ++ '[' :: (body ++ ']' :: escapedTokens 0 after) := by
  rw [escapedTokens, tokens_tag h]
  simp [Token.escaped, escapedTokens]

theorem escapedTokens_bracket (h : tagBody? text = none) :
    escapedTokens pending ('[' :: text) = backslashes pending ++ '[' :: escapedTokens 0 text := by
  rw [escapedTokens, tokens_bracket h]
  simp [Token.escaped, Token.text, escapedTokens]

theorem escapedTokens_char (hSlash : c ≠ '\\') (hBracket : c ≠ '[') :
    escapedTokens pending (c :: text) = backslashes pending ++ c :: escapedTokens 0 text := by
  rw [escapedTokens, tokens_char hSlash hBracket, List.flatMap_append, flatMap_flushed fun _ => rfl]
  rfl

theorem head?_backslashes (h : 0 < pending) : (backslashes pending ++ text).head? = some '\\' := by
  obtain ⟨n, rfl⟩ := Nat.exists_eq_succ_of_ne_zero h.ne'
  rfl

theorem head?_escapedTokens (h : 0 < pending) : (escapedTokens pending text).head? = some '\\' := by
  induction pending, text using tokens_induction with
  | nil pending => simpa [escapedTokens_nil] using @head?_backslashes [] pending h
  | slash pending text ih => rw [escapedTokens_slash, ih (Nat.succ_pos pending)]
  | tag pending body after hBody ih => rw [escapedTokens_tag hBody, head?_backslashes (Nat.succ_pos _)]
  | bracket pending text hBody ih => rw [escapedTokens_bracket hBody, head?_backslashes h]
  | char pending c text hSlash hBracket ih => rw [escapedTokens_char hSlash hBracket, head?_backslashes h]

/-- Escaping leaves the last character. -/
theorem getLast?_escapedTokens :
    (escapedTokens pending text).getLast? = (backslashes pending ++ text).getLast? := by
  induction pending, text using tokens_induction with
  | nil pending => rw [escapedTokens_nil, List.append_nil]
  | slash pending text ih =>
    rw [escapedTokens_slash, ih]
    simp [backslashes, List.replicate_succ']
  | tag pending body after hBody ih =>
    rw [escapedTokens_tag hBody]
    simp [List.getLast?_cons, ih, backslashes]
  | bracket pending text hBody ih =>
    rw [escapedTokens_bracket hBody]
    simp [List.getLast?_cons, ih, backslashes]
  | char pending c text hSlash hBracket ih =>
    rw [escapedTokens_char hSlash hBracket]
    simp [List.getLast?_cons, ih, backslashes]

theorem escape_of_guarded (h : guarded text = true) : escape text = escapedTokens 0 text := by
  have hLast := getLast?_of_guarded h
  have hSame : (escapedTokens 0 text).getLast? = text.getLast? := getLast?_escapedTokens
  rw [← hSame, List.getLast?_eq_head?_reverse] at hLast
  unfold escape closeSlashes
  rw [← escapedTokens]
  split
  · rfl
  · rename_i hReverse
    rw [hReverse] at hLast
    exact absurd rfl hLast
  · rfl

/-! ## Escaped text among other markup -/

/-- A text goes on with nothing or with a bracket, so that no tag can reach beyond its end. -/
def Parted (more : List Char) : Prop := ∀ next ∈ more.head?, next = '['

theorem endsTag_of_parted (h : Parted more) : endsTag more = false := by
  cases more with
  | nil => rfl
  | cons next more =>
    obtain rfl := h next rfl
    rfl

theorem endsTag_escapedTokens (h : Parted more) : endsTag (escapedTokens pending text ++ more) = endsTag text := by
  induction pending, text using tokens_induction with
  | nil pending =>
    rw [escapedTokens_nil, endsTag_backslashes, endsTag_of_parted h]
    rfl
  | slash pending text ih =>
    rw [escapedTokens_slash, ih]
    rfl
  | tag pending body after hBody ih =>
    rw [escapedTokens_tag hBody, List.append_assoc, endsTag_backslashes]
    rfl
  | bracket pending text hBody ih =>
    rw [escapedTokens_bracket hBody, List.append_assoc, endsTag_backslashes]
    rfl
  | char pending c text hSlash hBracket ih =>
    rw [escapedTokens_char hSlash hBracket, List.append_assoc, endsTag_backslashes, List.cons_append, endsTag_cons,
      endsTag_cons, ih]

theorem tagBody?_escapedTokens (hMore : Parted more) (h : tagBody? text = none) :
    tagBody? (escapedTokens 0 text ++ more) = none := by
  cases text with
  | nil =>
    rw [escapedTokens_nil]
    cases more with
    | nil => rfl
    | cons next more =>
      obtain rfl := hMore next rfl
      rfl
  | cons c text =>
    -- A tag starts with a character that escaping leaves in its place.
    by_cases hStart : startsTag c = true
    · have hSlash : c ≠ '\\' := by rintro rfl; cases hStart
      have hBracket : c ≠ '[' := by rintro rfl; cases hStart
      have hEnd := tagBody?_cons_eq_none_iff.mp h hStart
      rw [escapedTokens_char hSlash hBracket]
      exact tagBody?_cons_eq_none_iff.mpr fun _ => (endsTag_escapedTokens hMore).trans hEnd
    · have hOther {first : Char} (hHead : (escapedTokens 0 (c :: text)).head? = some first)
          (hFirst : startsTag first = false) : tagBody? (escapedTokens 0 (c :: text) ++ more) = none := by
        obtain ⟨rest, hRest⟩ := List.head?_eq_some_iff.mp hHead
        rw [hRest, List.cons_append, tagBody?_cons_eq_none_iff, hFirst]
        nofun
      by_cases hSlash : c = '\\'
      · subst hSlash
        exact hOther (by rw [escapedTokens_slash, head?_escapedTokens (Nat.succ_pos 0)]) rfl
      · by_cases hBracket : c = '['
        · subst hBracket
          cases hBody : tagBody? text with
          | none => exact hOther (by rw [escapedTokens_bracket hBody]; rfl) rfl
          | some found => exact hOther (by rw [escapedTokens_tag hBody]; rfl) rfl
        · exact hOther (by rw [escapedTokens_char hSlash hBracket]; rfl) (by simpa using hStart)

theorem pending_eq_zero (h : guarded (backslashes pending ++ text) = true) (hText : Parted text) :
    pending = 0 := by
  cases pending with
  | zero => rfl
  | succ n =>
    rw [backslashes, List.replicate_succ', List.append_assoc] at h
    obtain ⟨next, hNext, hOther⟩ := (guarded_cons.mp (guarded_of_append h)).1 rfl
    exact absurd (hText next hNext) hOther

theorem guarded_slash (h : guarded (backslashes pending ++ '\\' :: text) = true) :
    guarded (backslashes (pending + 1) ++ text) = true := by
  rwa [backslashes, List.replicate_succ', List.append_assoc]

theorem guarded_behind (h : guarded (backslashes pending ++ c :: text) = true) : guarded text = true :=
  (guarded_cons.mp (guarded_of_append h)).2

/-- The tags of an escaped text are those of the text, each behind a backslash. -/
theorem tokens_escapedTokens (hMore : Parted more) (h : guarded (backslashes pending ++ text) = true) :
    tokens 0 (escapedTokens pending text ++ more) = (tokens pending text).map Token.raised ++ tokens 0 more := by
  induction pending, text using tokens_induction with
  | nil pending =>
    obtain rfl := pending_eq_zero h nofun
    rw [escapedTokens_nil, tokens]
    rfl
  | slash pending text ih =>
    rw [escapedTokens_slash, tokens_slash]
    exact ih (guarded_slash h)
  | tag pending body after hBody ih =>
    obtain rfl := pending_eq_zero h (by simp [Parted])
    have hAfter : guarded after = true := (guarded_cons.mp (guarded_of_append (guarded_behind h))).2
    have hSlash : backslashes (2 * 0 + 1) = ['\\'] := rfl
    rw [escapedTokens_tag hBody, tokens_tag hBody, hSlash]
    simp only [List.cons_append, List.nil_append, List.append_assoc]
    rw [tokens_slash, tokens_tag (tagBody?_body hBody _), ih hAfter]
    rfl
  | bracket pending text hBody ih =>
    obtain rfl := pending_eq_zero h (by simp [Parted])
    have hNone := tagBody?_escapedTokens hMore hBody
    have hSlash : backslashes 0 = [] := rfl
    rw [escapedTokens_bracket hBody, tokens_bracket hBody, hSlash]
    simp only [List.cons_append, List.nil_append]
    rw [tokens_bracket hNone, ih (guarded_behind h)]
    rfl
  | char pending c text hSlash hBracket ih =>
    rw [escapedTokens_char hSlash hBracket, tokens_char hSlash hBracket, List.append_assoc, tokens_backslashes,
      List.cons_append, tokens_char hSlash hBracket, ih (guarded_behind h), Nat.zero_add]
    split <;> rfl

theorem bare_tokens (h : guarded (backslashes pending ++ text) = true) :
    ∀ token ∈ tokens pending text, token.Bare := by
  induction pending, text using tokens_induction with
  | nil pending =>
    obtain rfl := pending_eq_zero h (by simp [Parted])
    rw [tokens]
    exact List.forall_mem_nil _
  | slash pending text ih =>
    rw [tokens_slash]
    exact ih (guarded_slash h)
  | tag pending body after hBody ih =>
    obtain rfl := pending_eq_zero h (by simp [Parted])
    rw [tokens_tag hBody]
    exact List.forall_mem_cons.mpr ⟨rfl, ih (guarded_cons.mp (guarded_of_append (guarded_behind h))).2⟩
  | bracket pending text hBody ih =>
    obtain rfl := pending_eq_zero h (by simp [Parted])
    rw [tokens_bracket hBody]
    exact List.forall_mem_cons.mpr ⟨rfl, ih (guarded_behind h)⟩
  | char pending c text hSlash hBracket ih =>
    rw [tokens_char hSlash hBracket]
    refine List.forall_mem_append.mpr ⟨?_, List.forall_mem_cons.mpr ⟨trivial, ih (guarded_behind h)⟩⟩
    split
    · exact List.forall_mem_nil _
    · exact List.forall_mem_singleton.mpr trivial

/-! ## What is seen -/

/-- Of an escaped token without backslashes before its bracket the token is seen. -/
theorem seen_raised {list rest : List Token} (hBare : ∀ token ∈ list, token.Bare) (position : Nat)
    (opened : List (List Char)) : seen position opened (list.map Token.raised ++ rest) =
      (list.flatMap Token.text ++ ·) <$> seen (position + (list.flatMap Token.escaped).length) opened rest := by
  induction list generalizing position with
  | nil => simp
  | cons token list ih =>
    obtain ⟨hFirst, hMore⟩ := List.forall_mem_cons.mp hBare
    cases token with
    | char c =>
      have hPlace : position + ((Token.char c :: list).flatMap Token.escaped).length =
          position + 1 + (list.flatMap Token.escaped).length := by
        simp [Token.escaped, Token.text]
        omega
      simp only [List.map_cons, List.cons_append, Token.raised, seen]
      rw [ih hMore, hPlace]
      simp [Token.text]
    | slashes n =>
      have hPlace : position + ((Token.slashes n :: list).flatMap Token.escaped).length =
          position + n + (list.flatMap Token.escaped).length := by
        simp [Token.escaped, Token.text, backslashes]
        omega
      simp only [List.map_cons, List.cons_append, Token.raised, seen]
      rw [ih hMore, hPlace]
      simp [Token.text]
    | bracket n =>
      obtain rfl : n = 0 := hFirst
      have hPlace : position + ((Token.bracket 0 :: list).flatMap Token.escaped).length =
          position + 0 + 1 + (list.flatMap Token.escaped).length := by
        simp [Token.escaped, Token.text, backslashes]
        omega
      simp only [List.map_cons, List.cons_append, Token.raised, seen]
      rw [ih hMore, hPlace]
      simp [Token.text, backslashes]
    | tag n body =>
      obtain rfl : n = 0 := hFirst
      have hPlace : position + ((Token.tag 0 body :: list).flatMap Token.escaped).length =
          position + 1 + body.length + 2 + (list.flatMap Token.escaped).length := by
        simp [Token.escaped, backslashes]
        omega
      simp only [List.map_cons, List.cons_append, Token.raised, seen]
      rw [if_pos trivial, ih hMore, hPlace]
      simp [Token.text, backslashes]

theorem flatMap_text_tokens (text : List Char) : (tokens 0 text).flatMap Token.text = text := text_tokens 0 text

/-- Escaped text is seen as it is, wherever it stands in other markup. -/
theorem seen_escape (hText : guarded text = true) (hMore : Parted more) (position : Nat)
    (opened : List (List Char)) :
    seen position opened (tokens 0 (escape text ++ more)) =
      (text ++ ·) <$> seen (position + (escape text).length) opened (tokens 0 more) := by
  have hBare : ∀ token ∈ tokens 0 text, token.Bare := bare_tokens hText
  have hTokens := @tokens_escapedTokens text more 0 hMore hText
  rw [escape_of_guarded hText, hTokens, seen_raised hBare, flatMap_text_tokens, escapedTokens]

theorem plainText_escape (h : guarded text = true) : plainText (escape text) = .ok text := by
  have hSeen := @seen_escape text [] h nofun 0 []
  rw [List.append_nil, tokens, if_pos rfl] at hSeen
  rw [plainText, hSeen]
  simp [seen, Functor.map, Except.map]

/-! ## Codes of emoji -/

/-- The plain stretches between tags, of which `piece` is the one that is being read. -/
def pieces (position : Nat) (opened : List (List Char)) (piece : List Char) :
    List Token → Except MarkupFlaw (List (List Char))
  | [] => .ok [piece]
  | .tag n body :: rest => do
    let start := position + n
    let next := start + body.length + 2
    if n % 2 = 1 then
      return piece :: backslashes (n / 2) :: ('[' :: (body ++ [']'])) :: (← pieces next opened [] rest)
    else
      let opened ← afterTag start body opened
      return piece :: backslashes (n / 2) :: (← pieces next opened [] rest)
  | .bracket n :: rest => pieces (position + n + 1) opened (piece ++ (backslashes (n - 1) ++ ['['])) rest
  | .slashes n :: rest => pieces (position + n) opened (piece ++ backslashes n) rest
  | .char c :: rest => pieces (position + 1) opened (piece ++ [c]) rest

theorem flatten_pieces (position : Nat) (opened : List (List Char)) (piece : List Char) (list : List Token) :
    List.flatten <$> pieces position opened piece list = (piece ++ ·) <$> seen position opened list := by
  induction list generalizing position opened piece with
  | nil => simp [pieces, seen, Functor.map, Except.map]
  | cons token list ih =>
    cases token with
    | char c =>
      rw [pieces, ih, seen]
      simp
    | slashes n =>
      rw [pieces, ih, seen]
      simp
    | bracket n =>
      rw [pieces, ih, seen]
      simp
    | tag n body =>
      have hJoin (position : Nat) (opened : List (List Char)) :
          seen position opened list = List.flatten <$> pieces position opened [] list := by
        rw [ih]
        simp
      rw [pieces, seen, hJoin]
      split
      · simp
      · cases afterTag (position + n) body opened with
        | error flaw => rfl
        | ok opened => simp [hJoin]

/-- Codes are names between colons. -/
structure Emoji where
  isName : List Char → Prop
  replace : List Char → List Char
  /-- Only codes are replaced. -/
  replace_eq : ∀ text, (∀ name, isName name → ¬ ':' :: (name ++ [':']) <:+: text) → replace text = text

/-- No code stands in the text. -/
def Emoji.Leaves (emoji : Emoji) (text : List Char) : Prop :=
  ∀ name, emoji.isName name → ¬ ':' :: (name ++ [':']) <:+: text

theorem Emoji.leaves_of_count {emoji : Emoji} (h : text.count ':' ≤ 1) : emoji.Leaves text := by
  intro name _ hInfix
  have hCount := hInfix.sublist.count_le ':'
  simp only [List.count_cons_self, List.count_append] at hCount
  omega

/-- Marked-up text on the page: the codes in the stretches between its tags are replaced, and controls are left
    out. -/
def Emoji.shown (emoji : Emoji) (markup : List Char) : Except MarkupFlaw (List Char) := do
  let stretches ← pieces 0 [] [] (tokens 0 markup)
  return printed (stretches.flatMap emoji.replace)

theorem Emoji.shown_eq {emoji : Emoji} {markup : List Char} (h : plainText markup = .ok text)
    (hLeaves : emoji.Leaves text) (hVisible : Visible text) : emoji.shown markup = .ok text := by
  have hPieces := flatten_pieces 0 [] [] (tokens 0 markup)
  rw [← plainText, h] at hPieces
  unfold shown
  cases hStretches : pieces 0 [] [] (tokens 0 markup) with
  | error flaw =>
    rw [hStretches] at hPieces
    cases hPieces
  | ok stretches =>
    rw [hStretches] at hPieces
    have hText : stretches.flatten = text := Except.ok.inj hPieces
    have hStretch : ∀ stretch ∈ stretches, emoji.replace stretch = stretch := by
      intro stretch hMember
      have hInfix : stretch <:+: text := hText ▸ List.infix_of_mem_flatten hMember
      exact emoji.replace_eq stretch fun name hName hCode => hLeaves name hName (hCode.trans hInfix)
    have hSame : stretches.flatMap emoji.replace = text := by
      rw [List.flatMap_def, List.map_congr_left hStretch, List.map_id', hText]
    simp [hSame, printed_of_visible hVisible]

/-! ## Styles -/

/-- The tags of a text that are taken for styles. -/
def styles (markup : List Char) : List (List Char) := (tokens 0 markup).filterMap Token.style?

theorem style?_raised (token : Token) : token.raised.style? = none := by
  cases token with
  | char | slashes | bracket => rfl
  | tag n body => exact if_neg (by omega)

theorem filterMap_style?_escape (hText : guarded text = true) (hMore : Parted more) :
    styles (escape text ++ more) = styles more := by
  have hTokens := @tokens_escapedTokens text more 0 hMore hText
  have hNone : ((tokens 0 text).map Token.raised).filterMap Token.style? = [] := by
    rw [List.filterMap_map, List.filterMap_eq_nil_iff]
    exact fun token _ => style?_raised token
  rw [styles, escape_of_guarded hText, hTokens, List.filterMap_append, hNone]
  rfl

theorem styles_escape (h : guarded text = true) : styles (escape text) = [] := by
  have hStyles := @filterMap_style?_escape text [] h nofun
  rw [List.append_nil] at hStyles
  rw [hStyles, styles, tokens]
  rfl

end Reckon.Page

namespace Reckon.Report

open Page

variable {text style : String}

/-- The tags around a styled text, of which the second closes the first. -/
structure Tags (style : String) : Prop where
  opening : ∀ more, tagBody? (style.toList ++ ']' :: more) = some (style.toList, more)
  closing : tagBody? ('/' :: (style.toList ++ [']'])) = some ('/' :: style.toList, [])
  paired : ∀ position position', ∃ opened, afterTag position style.toList [] = .ok opened ∧
    afterTag position' ('/' :: style.toList) opened = .ok []

theorem tags_red : Tags "red" where
  opening _ := by simp [tagBody?, startsTag, inTag]
  closing := by simp [tagBody?, startsTag, inTag]
  paired _ _ := ⟨_, rfl, rfl⟩

theorem tags_green : Tags "green" where
  opening _ := by simp [tagBody?, startsTag, inTag]
  closing := by simp [tagBody?, startsTag, inTag]
  paired _ _ := ⟨_, rfl, rfl⟩

theorem tokens_styled (hTags : Tags style) : tokens 0 (styled style text) =
    .tag 0 style.toList :: tokens 0 (escape text.toList ++ ('[' :: '/' :: (style.toList ++ [']']))) := by
  have hBody := hTags.opening (escape text.toList ++ ('[' :: '/' :: (style.toList ++ [']'])))
  rw [← tokens_tag hBody, styled]
  simp

theorem tokens_closing (hTags : Tags style) :
    tokens 0 ('[' :: '/' :: (style.toList ++ [']'])) = [.tag 0 ('/' :: style.toList)] := by
  rw [tokens_tag hTags.closing, tokens, if_pos rfl]

theorem parted_bracket (more : List Char) : Parted ('[' :: more) := by simp [Parted]

theorem plainText_styled (hTags : Tags style) (hText : guarded text.toList = true) :
    plainText (styled style text) = .ok text.toList := by
  rw [plainText, tokens_styled hTags, seen]
  obtain ⟨opened, hOpen, hClose⟩ :=
    hTags.paired 0 (0 + 0 + style.toList.length + 2 + (escape text.toList).length + 0)
  rw [if_neg (by decide), hOpen]
  simp only [bind, Except.bind]
  rw [seen_escape hText (parted_bracket _), tokens_closing hTags, seen]
  rw [if_neg (by decide), hClose]
  simp [bind, Except.bind, pure, Except.pure, Functor.map, Except.map, seen, backslashes]

theorem styles_styled (hTags : Tags style) (hText : guarded text.toList = true) :
    styles (styled style text) = [style.toList, '/' :: style.toList] := by
  have hEscaped := filterMap_style?_escape hText (parted_bracket ('/' :: (style.toList ++ [']'])))
  have hFirst : (Token.tag 0 style.toList).style? = some style.toList := rfl
  rw [styles] at hEscaped
  rw [styles, tokens_styled hTags, List.filterMap_cons_some hFirst, hEscaped, styles, tokens_closing hTags]
  rfl

end Reckon.Report
