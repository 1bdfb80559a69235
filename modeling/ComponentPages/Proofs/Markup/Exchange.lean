import ComponentPages.Proofs.Markup.Analysis
import ComponentPages.Proofs.Markup.OpeningTag
import Mathlib.Data.List.Basic
import Mathlib.Data.List.TakeWhile

/-!
# Exchange of a text in markup

When a text in masked markup can be exchanged for another one so that the tags of the markup stay
where they are (`Exchange`). The text must begin and end no tag, and leave the place in the quotes
that it was in; then every scanner stops in the same place before and after. The scanners are
first put in a form that says what they do with a text whatever follows it: the end of a tag
(`cutTag_eq_some_iff`, `readTagEnd_eq`), its name (`readTagName_append`) and its start
(`readTagHead_append`). So the open elements are counted in the same way (`endsWithFirst_eq`).
-/
namespace ComponentPages.Markup

open Text

/-- A text behind which neither the start of a tag nor a name goes on. -/
def Sealed (text : List Char) : Prop :=
  ∃ c, text.getLast? = some c ∧ isTagChar c = false ∧ c ≠ '<' ∧ c ≠ '/'

/-- No name and no start of a tag goes on from a text to the next. -/
def Seam (front rest : List Char) : Prop :=
  front = [] ∨ Sealed front ∨ (EndsName rest ∧ rest.head? ≠ some '/')

/-- Reads the start of a tag up to the end of its name, and gives whether the tag closes an element,
and the name. -/
def readTagHead : Reader (Bool × List Char)
  | '<' :: '/' :: rest => (readTagName rest).map fun (name, after) => ((true, name), after)
  | '<' :: rest => (readTagName rest).map fun (name, after) => ((false, name), after)
  | _ => none

section Ends

variable {quote place : Option Char} {text : List Char}

/-- The place behind a text is that behind its parts, one after the other. -/
theorem quoteBehind_plain_append (quote : Option Char) (text others : List Char) :
    quoteBehind quote (plain (text ++ others)) =
      (quoteBehind quote (plain text)).bind fun quote => quoteBehind quote (plain others) := by
  rw [plain, List.map_append]
  exact quoteBehind_append

/-- A text in which no tag ends is passed. -/
theorem cutTag_of_passes (passes : quoteBehind quote (plain text) = some place)
    (rest : List Char) :
    cutTag quote (text ++ rest) =
      (cutTag place rest).map fun (tag, after) => (text ++ tag, after) := by
  induction text generalizing quote with
  | nil =>
    obtain rfl := Option.some.inj passes
    exact (congrFun Option.map_id (cutTag quote rest)).symm
  | cons c text ih =>
    change quoteBehind quote (.inl c :: plain text) = some place at passes
    rw [quoteBehind] at passes
    split at passes
    · cases passes
    · rename_i other
      rw [List.cons_append, cutTag_cons, if_neg other, ih passes, Option.map_map]
      rfl

/-- A tag that ends in a text ends there whatever follows the text. -/
theorem exists_of_not_passes (ends : quoteBehind quote (plain text) = none) :
    ∃ tag after, text = tag ++ '>' :: after ∧ quoteBehind quote (plain tag) = some none ∧
      ∀ rest, cutTag quote (text ++ rest) = some (tag, after ++ rest) := by
  induction text generalizing quote with
  | nil => exact nomatch ends
  | cons c text ih =>
    change quoteBehind quote (.inl c :: plain text) = none at ends
    rw [quoteBehind] at ends
    split at ends
    · rename_i outside
      obtain ⟨none, bracket⟩ := Bool.and_eq_true_iff.1 outside
      obtain rfl := eq_of_beq bracket
      refine ⟨[], text, rfl, congrArg some (Option.isNone_iff_eq_none.1 none), fun rest => ?_⟩
      rw [List.cons_append, cutTag_cons, if_pos outside]
    · rename_i other
      obtain ⟨tag, after, rfl, passes, cuts⟩ := ih ends
      refine ⟨c :: tag, after, rfl, ?_, fun rest => ?_⟩
      · show quoteBehind quote (.inl c :: plain tag) = some none
        rw [quoteBehind, if_neg other, passes]
      · rw [List.cons_append, cutTag_cons, if_neg other, cuts]
        rfl

/-- A tag ends at the first `>` outside of quotes. -/
theorem cutTag_eq_some_iff {tag after : List Char} :
    cutTag quote text = some (tag, after) ↔
      text = tag ++ '>' :: after ∧ quoteBehind quote (plain tag) = some none := by
  constructor
  · intro cuts
    rw [← List.append_nil text] at cuts
    cases passes : quoteBehind quote (plain text) with
    | some place =>
      rw [cutTag_of_passes passes, cutTag] at cuts
      cases cuts
    | none =>
      obtain ⟨found, rest, rfl, open_, here⟩ := exists_of_not_passes passes
      rw [here, List.append_nil] at cuts
      obtain ⟨rfl, rfl⟩ := Prod.mk.inj (Option.some.inj cuts)
      exact ⟨rfl, open_⟩
  · rintro ⟨rfl, passes⟩
    rw [cutTag_of_passes passes, cutTag_cons, if_pos (by decide)]
    simp

/-- A text without the end of a tag is passed. -/
theorem exists_passes (unended : '>' ∉ text) (quote : Option Char) :
    ∃ place, quoteBehind quote (plain text) = some place := by
  cases passes : quoteBehind quote (plain text) with
  | some place => exact ⟨place, rfl⟩
  | none =>
    obtain ⟨tag, after, rfl, -⟩ := exists_of_not_passes passes
    exact absurd (by simp) unended

/-- The rest of a tag ends where the tag ends, and the tag closes itself if a slash is right before
that. -/
theorem readTagEnd_eq (isQuote : IsQuote quote) (text : List Char) :
    readTagEnd quote text =
      (cutTag quote text).map fun (tag, after) => (tag.getLast? == some '/', after) := by
  have later {c : Char} {place : Option Char} {rest : List Char} (isPlace : IsQuote place)
      (other : c = '/' → place = none → rest.head? ≠ some '>') :
      (cutTag place rest).map (fun (tag, after) => (tag.getLast? == some '/', after)) =
        ((cutTag place rest).map fun (tag, after) => (c :: tag, after)).map
          fun (tag, after) => (tag.getLast? == some '/', after) := by
    cases cuts : cutTag place rest with
    | none => rfl
    | some found =>
      obtain ⟨tag, after⟩ := found
      obtain ⟨rfl, passes⟩ := cutTag_eq_some_iff.1 cuts
      cases tag with
      | nil =>
        have apart : c ≠ '/' := fun slash => other slash (Option.some.inj passes) rfl
        simp [apart]
      | cons first tag => simp
  fun_induction readTagEnd quote text with
  | case1 quote => cases quote <;> rfl
  | case2 quote c rest ih =>
    have isPlace : IsQuote (quoteAfter (some quote) c) := isQuote.after c
    have outside : ¬ ((some quote).isNone && c == '>') = true := by simp
    rw [cutTag_cons, if_neg outside]
    refine (ih isPlace).trans (later isPlace fun slash none => ?_)
    -- A value ends with its quote, and no quote is a slash.
    change (if c == quote then .none else some quote) = Option.none at none
    split at none
    · rename_i closes
      rcases isQuote quote rfl with rfl | rfl
      · exact absurd (slash ▸ eq_of_beq closes) (by decide)
      · exact absurd (slash ▸ eq_of_beq closes) (by decide)
    · exact nomatch none
  | case3 rest => rfl
  | case4 c rest notSlash ends =>
    have inside : ((none : Option Char).isNone && c == '>') = true := ends
    rw [cutTag_cons, if_pos inside]
    rfl
  | case5 c rest notSlash ends ih =>
    have isPlace : IsQuote (quoteAfter none c) := isQuote.after c
    have outside : ¬ ((none : Option Char).isNone && c == '>') = true := ends
    rw [cutTag_cons, if_neg outside]
    refine (ih isPlace).trans (later isPlace fun slash _ bracket => ?_)
    obtain ⟨after, rfl⟩ := List.head?_eq_some_iff.1 bracket
    exact notSlash after slash rfl

end Ends

section Names

variable {front rest : List Char}

/-- A name is cut at the edge of a word whatever follows, if that does not go on with the word. -/
theorem cutAtEdge_append (before : List Char) {front rest : List Char}
    (same : endsWord (front ++ rest) = endsWord front) :
    cutAtEdge before (front ++ rest) =
      (cutAtEdge before front).map fun (name, after) => (name, after ++ rest) := by
  induction before generalizing front with
  | nil => rfl
  | cons c before ih =>
    rw [cutAtEdge, cutAtEdge]
    have edge : isEdge c (front ++ rest) = isEdge c front := by rw [isEdge, isEdge, same]
    rw [edge]
    split
    · rfl
    · exact @ih (c :: front) rfl

/-- A letter is a character of names. -/
theorem isTagChar_of_isAlpha {c : Char} (letter : c.isAlpha = true) : isTagChar c = true := by
  simp [isTagChar, Char.isAlphanum, letter]

/-- The longest name at the front of a text is made of the characters of names. -/
theorem exists_of_tagName? {text name : List Char} (named : tagName? text = some name) :
    ∃ left, text = name ++ left ∧ ∀ c ∈ name, isTagChar c = true := by
  cases text with
  | nil => cases named
  | cons c text =>
    rw [tagName?] at named
    split at named
    · rename_i letter
      obtain rfl := Option.some.inj named
      refine ⟨text.dropWhile isTagChar, ?_, List.forall_mem_cons.2
        ⟨isTagChar_of_isAlpha letter, List.all_eq_true.1 List.all_takeWhile⟩⟩
      rw [List.cons_append, List.takeWhile_append_dropWhile]
    · cases named

/-- A text of characters of names is not sealed. -/
theorem not_sealed (letters : ∀ c ∈ front, isTagChar c = true) : ¬ Sealed front := by
  rintro ⟨last, same, other, -⟩
  exact nomatch other.symm.trans (letters last (List.mem_of_getLast? same))

/-- Nothing starts a name in front of a text that ends names. -/
theorem tagName?_of_endsName (ends : EndsName rest) : tagName? rest = none := by
  cases rest with
  | nil => rfl
  | cons c rest =>
    have other : ¬ c.isAlpha = true := fun letter =>
      nomatch (ends c rfl).1.symm.trans (isTagChar_of_isAlpha letter)
    rw [tagName?, if_neg other]

/-- The longest name at the front of a text ends there whatever follows the text, if no name goes
on from it. -/
theorem tagName?_append (apart : Sealed front ∨ EndsName rest) :
    tagName? (front ++ rest) = tagName? front := by
  cases front with
  | nil => exact tagName?_of_endsName (apart.resolve_left (not_sealed nofun))
  | cons c front =>
    rw [List.cons_append, tagName?, tagName?]
    split
    · rename_i letter
      rw [List.takeWhile_append]
      split
      · rename_i long
        have all : front.takeWhile isTagChar = front :=
          (List.takeWhile_prefix isTagChar).eq_of_length long
        have ends : EndsName rest := apart.resolve_left (not_sealed (List.forall_mem_cons.2
          ⟨isTagChar_of_isAlpha letter, List.takeWhile_eq_self_iff.1 all⟩))
        have stops : rest.takeWhile isTagChar = [] := by
          cases rest with
          | nil => rfl
          | cons d rest => simp [(ends d rfl).1]
        rw [stops, List.append_nil, all]
      · rfl
    · rfl

/-- A name in a text ends there whatever follows the text, if no name goes on from it. -/
theorem readTagName_append (apart : Sealed front ∨ EndsName rest) :
    readTagName (front ++ rest) =
      (readTagName front).map fun (name, after) => (name, after ++ rest) := by
  rw [readTagName, readTagName, tagName?_append apart]
  cases named : tagName? front with
  | none => rfl
  | some name =>
    obtain ⟨left, rfl, letters⟩ := exists_of_tagName? named
    have word : endsWord (left ++ rest) = endsWord left := by
      cases left with
      | cons d left => rfl
      | nil =>
        rw [List.append_nil] at apart
        have ends : EndsName rest := apart.resolve_left (not_sealed letters)
        cases rest with
        | nil => rfl
        | cons d rest => simp [endsWord, (ends d rfl).2]
    simp only [Option.bind_eq_bind, Option.bind_some, List.append_assoc, List.drop_left]
    exact cutAtEdge_append _ word

/-- Nothing is read as a name in front of a text that ends names. -/
theorem readTagName_of_endsName (ends : EndsName rest) : readTagName rest = none := by
  rw [readTagName, tagName?_of_endsName ends]
  rfl

end Names

section Heads

variable {front rest : List Char}

/-- A text that does not start with a tag has no start of one. -/
theorem readTagHead_of_head (other : rest.head? ≠ some '<') : readTagHead rest = none := by
  unfold readTagHead
  split
  · exact absurd rfl other
  · exact absurd rfl other
  · rfl

/-- The start of a tag that opens an element is a `<` and a name. -/
theorem readTagHead_opening (other : rest.head? ≠ some '/') :
    readTagHead ('<' :: rest) =
      (readTagName rest).map fun (name, after) => ((false, name), after) := by
  unfold readTagHead
  split
  · rename_i same
    exact absurd (congrArg List.head? (List.cons.inj same).2) other
  · rename_i same
    rw [(List.cons.inj same).2]
  · rename_i none
    exact absurd rfl (none rest)

/-- The start of a tag that closes an element is a `<`, a slash and a name. -/
theorem readTagHead_closing (rest : List Char) :
    readTagHead ('<' :: '/' :: rest) =
      (readTagName rest).map fun (name, after) => ((true, name), after) := rfl

/-- A tag is its start and its rest. -/
theorem readTag_eq (text : List Char) :
    readTag text = (readTagHead text).bind fun ((closing, name), rest) =>
      (readTagEnd none rest).map fun (selfClosing, after) =>
        (⟨closing, name, selfClosing⟩, after) := by
  have parts (closing : Bool) (found : Option (List Char × List Char)) :
      (found.bind fun (name, rest) => (readTagEnd none rest).bind fun (selfClosing, after) =>
          some ((⟨closing, name, selfClosing⟩ : Tag), after)) =
        (found.map fun (name, after) => ((closing, name), after)).bind
          fun ((closing, name), rest) => (readTagEnd none rest).map fun (selfClosing, after) =>
            (⟨closing, name, selfClosing⟩, after) := by
    cases found with
    | none => rfl
    | some found => exact Option.map_eq_bind.symm
  unfold readTagHead
  split
  · exact parts true _
  · rename_i rest other
    rw [← parts false]
    simp only [readTag]
    rfl
  · rename_i closing other
    unfold readTag
    split
    · exact absurd rfl (other _)
    · rfl

/-- Cutting a name at the edge of a word loses nothing. -/
theorem eq_append_of_cutAtEdge {before name after : List Char}
    (cuts : cutAtEdge before rest = some (name, after)) :
    before.reverse ++ rest = name ++ after := by
  induction before generalizing rest with
  | nil => exact nomatch cuts
  | cons c before ih =>
    rw [cutAtEdge] at cuts
    split at cuts
    · obtain ⟨rfl, rfl⟩ := Prod.mk.inj (Option.some.inj cuts)
      rfl
    · rw [← ih cuts]
      simp

/-- What is read as a name is in front of the rest. -/
theorem eq_append_of_readTagName {text name after : List Char}
    (read : readTagName text = some (name, after)) : text = name ++ after := by
  obtain ⟨long, named, cuts⟩ := Option.bind_eq_some_iff.1 read
  obtain ⟨left, rfl, -⟩ := exists_of_tagName? named
  rw [List.drop_left] at cuts
  rw [← eq_append_of_cutAtEdge cuts, List.reverse_reverse]

/-- The start of a tag is in front of the rest, and has at least one character. -/
theorem exists_of_readTagHead {text after : List Char} {head : Bool × List Char}
    (read : readTagHead text = some (head, after)) :
    ∃ start, text = start ++ after ∧ start ≠ [] := by
  unfold readTagHead at read
  split at read
  · obtain ⟨found, named, same⟩ := Option.map_eq_some_iff.1 read
    obtain ⟨-, rfl⟩ := Prod.mk.inj same
    exact ⟨'<' :: '/' :: found.1, by rw [eq_append_of_readTagName named]; rfl, by simp⟩
  · obtain ⟨found, named, same⟩ := Option.map_eq_some_iff.1 read
    obtain ⟨-, rfl⟩ := Prod.mk.inj same
    exact ⟨'<' :: found.1, by rw [eq_append_of_readTagName named]; rfl, by simp⟩
  · exact nomatch read

/-- A sealed text is sealed behind the start of a tag. -/
theorem Sealed.of_cons {c : Char} (isSealed : Sealed (c :: front)) (opens : c = '<' ∨ c = '/') :
    Sealed front := by
  cases front with
  | cons next others => exact isSealed
  | nil =>
    obtain ⟨last, same, -, bracket, slash⟩ := isSealed
    obtain rfl := Option.some.inj same
    exact absurd opens (not_or.2 ⟨bracket, slash⟩)

/-- No name goes on from the start of a tag to the text behind it. -/
theorem Seam.of_cons (seam : Seam ('<' :: front) rest) : Sealed front ∨ EndsName rest :=
  (seam.resolve_left (List.cons_ne_nil _ _)).imp (fun isSealed => isSealed.of_cons (.inl rfl))
    And.left

/-- The start of a tag in a text is read there whatever follows the text, if nothing of it goes on
from there. -/
theorem readTagHead_append (filled : front ≠ []) (seam : Seam front rest) :
    readTagHead (front ++ rest) =
      (readTagHead front).map fun (head, after) => (head, after ++ rest) := by
  cases front with
  | nil => exact absurd rfl filled
  | cons c front =>
    by_cases opens : c = '<'
    · subst opens
      cases front with
      | nil =>
        obtain ⟨ends, other⟩ : EndsName rest ∧ rest.head? ≠ some '/' := by
          refine (seam.resolve_left (List.cons_ne_nil _ _)).resolve_left ?_
          rintro ⟨c, same, -, bracket, -⟩
          exact bracket (Option.some.inj same).symm
        rw [List.singleton_append, readTagHead_opening other, readTagName_of_endsName ends]
        rfl
      | cons next front =>
        by_cases closes : next = '/'
        · subst closes
          have last : Sealed front ∨ EndsName rest :=
            seam.of_cons.imp_left fun isSealed => isSealed.of_cons (.inr rfl)
          rw [List.cons_append, List.cons_append, readTagHead_closing, readTagHead_closing,
            readTagName_append last, Option.map_map, Option.map_map]
          rfl
        · rw [List.cons_append, readTagHead_opening (by simpa using closes),
            readTagHead_opening (by simpa using closes), readTagName_append seam.of_cons,
            Option.map_map, Option.map_map]
          rfl
    · rw [List.cons_append, readTagHead_of_head (by simpa using opens),
        readTagHead_of_head (by simpa using opens)]
      rfl

end Heads

/-- A text between others that can be exchanged for another one without a change to the tags: both
are texts inside of a tag or between tags, and lead from one place in a tag to the same place. -/
structure Exchange (front old new back : List Char) : Prop where
  seamOld : Seam front (old ++ back)
  seamNew : Seam front (new ++ back)
  signsOld : ∀ c ∈ old, c ∉ ['<', '>', '/']
  signsNew : ∀ c ∈ new, c ∉ ['<', '>', '/']
  quotes : ∀ quote, IsQuote quote → quoteBehind quote (plain new) = quoteBehind quote (plain old)
  /-- The slash of a tag that closes itself is not right in front of the new text. -/
  unslashed : old = [] → front.getLast? ≠ some '/'
  filled : ∃ c ∈ new, isBlank c = false
  behind : back ≠ []

section Exchange

variable {front old new back : List Char}

/-- No tag starts in the texts that are exchanged. -/
theorem Exchange.unopened (exchange : Exchange front old new back) : '<' ∉ old ∧ '<' ∉ new :=
  ⟨fun member => exchange.signsOld '<' member (by decide),
    fun member => exchange.signsNew '<' member (by decide)⟩

/-- Texts can be exchanged also behind the end of what is in front of them. -/
theorem Exchange.later {text : List Char} (exchange : Exchange (text ++ front) old new back) :
    Exchange front old new back := by
  have seam {rest : List Char} (seam : Seam (text ++ front) rest) : Seam front rest := by
    cases front with
    | nil => exact .inl rfl
    | cons c front =>
      refine .inr ((seam.resolve_left (by simp)).imp_left ?_)
      rintro ⟨last, same, others⟩
      rw [List.getLast?_append_of_ne_nil _ (List.cons_ne_nil c front)] at same
      exact ⟨last, same, others⟩
  refine { exchange with
    seamOld := seam exchange.seamOld
    seamNew := seam exchange.seamNew
    unslashed := fun none slash => exchange.unslashed none ?_ }
  rw [List.getLast?_append, slash]
  rfl

/-- Whether a tag closes itself does not depend on the text in it that is exchanged. -/
theorem Exchange.getLast?_eq (exchange : Exchange front old new back) (tag : List Char) :
    ((front ++ (new ++ tag)).getLast? == some '/') =
      ((front ++ (old ++ tag)).getLast? == some '/') := by
  cases tag with
  | cons c tag =>
    rw [List.getLast?_append_of_ne_nil _ (by simp), List.getLast?_append_of_ne_nil _ (by simp),
      List.getLast?_append_of_ne_nil _ (by simp), List.getLast?_append_of_ne_nil _ (by simp)]
  | nil =>
    have inside {text : List Char} (filled : text ≠ [])
        (signs : ∀ c ∈ text, c ∉ ['<', '>', '/']) :
        (front ++ (text ++ [])).getLast? ≠ some '/' := by
      rw [List.append_nil, List.getLast?_append_of_ne_nil _ filled]
      exact fun slash => signs '/' (List.mem_of_getLast? slash) (by decide)
    have filledNew : new ≠ [] := by
      obtain ⟨c, member, -⟩ := exchange.filled
      exact List.ne_nil_of_mem member
    have shownOld : (front ++ (old ++ [])).getLast? ≠ some '/' := by
      by_cases none : old = []
      · simpa [none] using exchange.unslashed none
      · exact inside none exchange.signsOld
    rw [beq_eq_false_iff_ne.2 (inside filledNew exchange.signsNew),
      beq_eq_false_iff_ne.2 shownOld]

/-- Two texts are the same and within a text behind an exchange, or they differ by the exchange
behind the end of the text in front of it. -/
def Exchanged (front old new back first second : List Char) : Prop :=
  (first = second ∧ first.length ≤ back.length) ∨
    ∃ text later, front = text ++ later ∧ first = later ++ (old ++ back) ∧
      second = later ++ (new ++ back)

/-- The end of a tag is found in the same place after an exchange. -/
theorem Exchange.cutTag_cases (exchange : Exchange front old new back) :
    (cutTag none (front ++ (old ++ back)) = none ∧
        cutTag none (front ++ (new ++ back)) = none) ∨
      (quoteBehind none (plain front) = none ∧ ∃ tag later, front = tag ++ '>' :: later ∧
        ∀ text, cutTag none (front ++ text) = some (tag, later ++ text)) ∨
      ∃ tag after, back = tag ++ '>' :: after ∧
        cutTag none (front ++ (old ++ back)) = some (front ++ (old ++ tag), after) ∧
        cutTag none (front ++ (new ++ back)) = some (front ++ (new ++ tag), after) := by
  have outside : IsQuote none := nofun
  cases passes : quoteBehind none (plain front) with
  | none =>
    obtain ⟨tag, later, same, -, cuts⟩ := exists_of_not_passes passes
    exact .inr (.inl ⟨rfl, tag, later, same, cuts⟩)
  | some place =>
    obtain ⟨next, passesOld⟩ := exists_passes (fun member =>
      exchange.signsOld '>' member (by decide) : '>' ∉ old) place
    have passesNew := (exchange.quotes place (outside.behind passes)).trans passesOld
    rw [cutTag_of_passes passes, cutTag_of_passes passes, cutTag_of_passes passesOld,
      cutTag_of_passes passesNew]
    cases ends : cutTag next back with
    | none => exact .inl ⟨rfl, rfl⟩
    | some found => exact .inr (.inr ⟨found.1, found.2, (cutTag_eq_some_iff.1 ends).1, rfl, rfl⟩)

/-- The end of a tag is read in the same way after an exchange. -/
theorem Exchange.readTagEnd_cases (exchange : Exchange front old new back) :
    (readTagEnd none (front ++ (old ++ back)) = none ∧
        readTagEnd none (front ++ (new ++ back)) = none) ∨
      ∃ selfClosing first second,
        readTagEnd none (front ++ (old ++ back)) = some (selfClosing, first) ∧
        readTagEnd none (front ++ (new ++ back)) = some (selfClosing, second) ∧
        Exchanged front old new back first second := by
  have outside : IsQuote none := nofun
  rw [readTagEnd_eq outside, readTagEnd_eq outside]
  rcases exchange.cutTag_cases with ⟨before, after⟩ | ⟨-, tag, later, same, cuts⟩ |
    ⟨tag, after, same, before, behind⟩
  · exact .inl ⟨by rw [before]; rfl, by rw [after]; rfl⟩
  · refine .inr ⟨tag.getLast? == some '/', _, _, by rw [cuts]; rfl, by rw [cuts]; rfl,
      .inr ⟨tag ++ ['>'], later, by simpa using same, rfl, rfl⟩⟩
  · refine .inr ⟨_, after, after, by rw [before]; rfl, ?_, .inl ⟨rfl, ?_⟩⟩
    · rw [behind, ← exchange.getLast?_eq]
      rfl
    · rw [same]
      simp only [List.length_append, List.length_cons]
      omega

/-- A tag is read in the same way after an exchange behind its start. -/
theorem Exchange.readTag_cases (exchange : Exchange front old new back) (filled : front ≠ []) :
    (readTag (front ++ (old ++ back)) = none ∧ readTag (front ++ (new ++ back)) = none) ∨
      ∃ tag first second, readTag (front ++ (old ++ back)) = some (tag, first) ∧
        readTag (front ++ (new ++ back)) = some (tag, second) ∧
        Exchanged front old new back first second ∧
        first.length < (front ++ (old ++ back)).length ∧
        second.length < (front ++ (new ++ back)).length := by
  rw [readTag_eq, readTag_eq, readTagHead_append filled exchange.seamOld,
    readTagHead_append filled exchange.seamNew]
  cases head : readTagHead front with
  | none => exact .inl ⟨rfl, rfl⟩
  | some found =>
    obtain ⟨⟨closing, name⟩, rest⟩ := found
    obtain ⟨start, rfl, some_letter⟩ := exists_of_readTagHead head
    have longer : 0 < start.length := List.length_pos_iff.2 some_letter
    simp only [Option.map_some, Option.bind_some]
    rcases exchange.later.readTagEnd_cases with ⟨before, after⟩ |
      ⟨selfClosing, first, second, before, after, same⟩
    · exact .inl ⟨by rw [before]; rfl, by rw [after]; rfl⟩
    · refine .inr ⟨⟨closing, name, selfClosing⟩, first, second, by rw [before]; rfl,
        by rw [after]; rfl, ?_, ?_, ?_⟩
      · rcases same with whole | ⟨text, later, rfl, rfl, rfl⟩
        · exact .inl whole
        · exact .inr ⟨start ++ text, later, by rw [List.append_assoc], rfl, rfl⟩
      · rcases same with ⟨-, short⟩ | ⟨text, later, rfl, rfl, rfl⟩
        · simp only [List.length_append]
          omega
        · simp only [List.length_append]
          omega
      · rcases same with ⟨rfl, short⟩ | ⟨text, later, rfl, rfl, rfl⟩
        · simp only [List.length_append]
          omega
        · simp only [List.length_append]
          omega

/-- Tags are counted in the same way after an exchange. -/
theorem Exchange.endsWithFirst_eq (exchange : Exchange front old new back) (name : List Char)
    (depth : Nat) :
    endsWithFirst name depth (readTag.pieces (front ++ (new ++ back))) =
      endsWithFirst name depth (readTag.pieces (front ++ (old ++ back))) := by
  induction size : front.length using Nat.strongRecOn generalizing front depth with
  | ind size ih =>
    cases front with
    | nil =>
      rw [List.nil_append, List.nil_append, endsWithFirst_append exchange.unopened.1,
        endsWithFirst_append exchange.unopened.2]
    | cons c front =>
      rcases exchange.readTag_cases (List.cons_ne_nil c front) with ⟨before, after⟩ |
        ⟨tag, first, second, before, after, same, shorter, shorterNew⟩
      · have later : Exchange front old new back :=
          (show Exchange ([c] ++ front) old new back from exchange).later
        have unread : readTag (c :: (front ++ (old ++ back))) = none := before
        have unreadNew : readTag (c :: (front ++ (new ++ back))) = none := after
        rw [List.cons_append, List.cons_append, Reader.pieces_cons unread,
          Reader.pieces_cons unreadNew]
        exact ih front.length (by simp [← size]) later depth rfl
      · rw [Reader.pieces_of_read before shorter, Reader.pieces_of_read after shorterNew]
        have counts (depth : Nat) : endsWithFirst name depth (readTag.pieces second) =
            endsWithFirst name depth (readTag.pieces first) := by
          rcases same with ⟨rfl, -⟩ | ⟨text, later, whole, rfl, rfl⟩
          · rfl
          · simp only [List.length_append] at shorter
            have rest : Exchange later old new back := (whole ▸ exchange).later
            exact ih later.length (by omega) rest depth rfl
        have ends : (readTag.pieces second).isEmpty = (readTag.pieces first).isEmpty := by
          rw [Reader.isEmpty_pieces, Reader.isEmpty_pieces]
          rcases same with ⟨rfl, -⟩ | ⟨text, later, whole, rfl, rfl⟩
          · rfl
          · rw [List.isEmpty_eq_false_iff.2 (by simp [exchange.behind]),
              List.isEmpty_eq_false_iff.2 (by simp [exchange.behind])]
        simp only [endsWithFirst, counts, ends]

end Exchange

end ComponentPages.Markup
