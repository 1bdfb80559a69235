import ComponentPages.Proofs.Markup.Exchange

/-!
# Bodies with a root

A body has a root just if it has certain parts (`Rooted`, `rootOf?_eq_some_iff`): the tag that it
starts with, the inside of the root and the last closing tag. When a text is exchanged, these parts
are found in the same places (`Rooted.exchange`): the text is in the first tag or inside of the
root, never in the last closing tag. So the kind and the name of a root are kept
(`HasRoot.exchange`).
-/
namespace ComponentPages.Markup

open Text

/-- The parts of a body with a root: the tag that it starts with, the text inside of the root, and
what follows the last start of a closing tag. -/
structure Rooted (body name opening inner after : List Char) : Prop where
  whole : body = opening ++ '>' :: (inner ++ '<' :: '/' :: after)
  start : body.head? = some '<'
  named : tagName? body.tail = some name
  passes : quoteBehind none (plain opening) = some none
  last : ¬ ['<', '/'] <:+: after
  ends : after.getLast? = some '>'
  closes : alike (trim after.dropLast) name = true
  unslashed : (trimEnd (opening.drop (name.length + 1))).getLast? ≠ some '/'
  counts : endsWithFirst name 0 (readTag.pieces body) = true

section Rooted

variable {body name opening inner after : List Char} {root : Root}

/-- What is known about a root with these parts. -/
def rootOf (name opening inner : List Char) : Root where
  kind := if holdsElement inner then .container else .single
  tag := some (String.ofList name)
  classes := literalClasses (opening.drop (name.length + 1))

/-- A closing tag is cut off the end of a body just if it is the last one and has the name. -/
theorem beforeClosing?_eq_some_iff {before : List Char} :
    beforeClosing? name body = some before ↔ ∃ after, body = before ++ '<' :: '/' :: after ∧
      ¬ ['<', '/'] <:+: after ∧ after.getLast? = some '>' ∧
      alike (trim after.dropLast) name = true := by
  have cuts {after : List Char} : cutLast ['<', '/'] body = some (before, after) ↔
      body = before ++ '<' :: '/' :: after ∧ ¬ ['<', '/'] <:+: after :=
    cutLast_eq_some_iff (by decide)
  have last (before after : List Char) :
      (before ++ '<' :: '/' :: after).getLast? = some '>' ↔ after.getLast? = some '>' := by
    cases after with
    | nil => simp
    | cons c after => simp
  constructor
  · intro found
    unfold beforeClosing? at found
    split at found
    · rename_i ends
      split at found
      · rename_i front after cut
        split at found
        · rename_i closes
          obtain rfl := Option.some.inj found
          obtain ⟨rfl, free⟩ := cuts.1 cut
          exact ⟨after, rfl, free, (last _ _).1 ends, closes⟩
        · exact nomatch found
      · exact nomatch found
    · exact nomatch found
  · rintro ⟨after, rfl, free, ends, closes⟩
    rw [beforeClosing?, if_pos ((last _ _).2 ends), cuts.2 ⟨rfl, free⟩]
    exact if_pos closes

/-- What is known about the root of a body that starts with a tag. -/
theorem rootOf?_cons (rest : List Char) : rootOf? ('<' :: rest) =
    (tagName? rest).bind fun name => (cutTag none ('<' :: rest)).bind fun (opening, behind) =>
      (beforeClosing? name ('<' :: rest)).bind fun before =>
        if (trimEnd (opening.drop (name.length + 1))).getLast? = some '/' ||
            before.length ≤ opening.length ||
            !endsWithFirst name 0 (readTag.pieces ('<' :: rest)) then none
        else some (rootOf name opening
          (behind.take (before.length - (opening.length + 1)))) := rfl

/-- A body has a root just if it has the parts of one. -/
theorem rootOf?_eq_some_iff : rootOf? body = some root ↔
    ∃ name opening inner after, Rooted body name opening inner after ∧
      root = rootOf name opening inner := by
  constructor
  · intro found
    by_cases start : body.head? = some '<'
    · obtain ⟨rest, rfl⟩ := List.head?_eq_some_iff.1 start
      rw [rootOf?_cons] at found
      obtain ⟨name, named, found⟩ := Option.bind_eq_some_iff.1 found
      obtain ⟨⟨opening, behind⟩, cuts, found⟩ := Option.bind_eq_some_iff.1 found
      obtain ⟨before, closing, found⟩ := Option.bind_eq_some_iff.1 found
      obtain ⟨whole, passes⟩ := cutTag_eq_some_iff.1 cuts
      obtain ⟨after, parts, last, ends, closes⟩ := beforeClosing?_eq_some_iff.1 closing
      split at found
      · exact nomatch found
      · rename_i guards
        simp only [Bool.or_eq_true, decide_eq_true_eq, Bool.not_eq_true', not_or, Nat.not_le,
          Bool.not_eq_false] at guards
        obtain ⟨⟨unslashed, longer⟩, counts⟩ := guards
        -- The last closing tag starts behind the tag that the body starts with.
        obtain ⟨inner, rfl, rfl⟩ : ∃ inner, before = opening ++ '>' :: inner ∧
            behind = inner ++ '<' :: '/' :: after := by
          rcases List.append_eq_append_iff.1 (whole.symm.trans parts) with
            ⟨middle, rfl, same⟩ | ⟨middle, rfl, same⟩
          · cases middle with
            | nil => simp at longer
            | cons c inner =>
              obtain ⟨rfl, rfl⟩ := List.cons.inj same
              exact ⟨inner, rfl, rfl⟩
          · simp only [List.length_append] at longer
            omega
        refine ⟨name, opening, inner, after,
          ⟨whole, rfl, named, passes, last, ends, closes, unslashed, counts⟩, ?_⟩
        obtain rfl := Option.some.inj found
        have length : (opening ++ '>' :: inner).length - (opening.length + 1) = inner.length := by
          simp only [List.length_append, List.length_cons]
          omega
        rw [length, List.take_left]
    · rw [rootOf?_of_head start] at found
      exact nomatch found
  · rintro ⟨name, opening, inner, after, rooted, rfl⟩
    obtain ⟨rest, rfl⟩ := List.head?_eq_some_iff.1 rooted.start
    have cuts := cutTag_eq_some_iff.2 ⟨rooted.whole, rooted.passes⟩
    have closing : beforeClosing? name ('<' :: rest) = some (opening ++ '>' :: inner) := by
      refine beforeClosing?_eq_some_iff.2 ⟨after, ?_, rooted.last, rooted.ends, rooted.closes⟩
      rw [rooted.whole]
      simp
    have longer : ¬ (opening ++ '>' :: inner).length ≤ opening.length := by
      simp only [List.length_append, List.length_cons]
      omega
    have length : (opening ++ '>' :: inner).length - (opening.length + 1) = inner.length := by
      simp only [List.length_append, List.length_cons]
      omega
    have named : tagName? rest = some name := rooted.named
    simp only [rootOf?_cons, named, cuts, closing, Option.bind_some, rooted.unslashed, longer,
      rooted.counts, length, List.take_left, decide_false, Bool.not_true, Bool.or_false,
      Bool.false_eq_true, ↓reduceIte]

/-- The tag that a body with a root starts with starts with a bracket. -/
theorem Rooted.head_opening (rooted : Rooted body name opening inner after) :
    opening.head? = some '<' := by
  have start := rooted.start
  rw [rooted.whole] at start
  cases opening with
  | nil => exact absurd start (by simp)
  | cons c opening => exact start

/-- A tag that ends with a slash does not open a root. -/
theorem Rooted.getLast?_opening (rooted : Rooted body name opening inner after) :
    opening.getLast? ≠ some '/' := by
  intro slash
  obtain ⟨others, rfl⟩ := List.head?_eq_some_iff.1 rooted.head_opening
  have named := rooted.named
  rw [rooted.whole] at named
  have tagged : tagName? others = some name :=
    (tagName?_append (.inr (endsName_bracket _))).symm.trans named
  obtain ⟨left, rfl, letters⟩ := exists_of_tagName? tagged
  rcases List.eq_nil_or_concat left with rfl | ⟨init, last, rfl⟩
  · rw [List.append_nil] at slash
    rcases List.mem_cons.1 (List.mem_of_getLast? slash) with same | listed
    · exact absurd same (by decide)
    · exact absurd (letters '/' listed) (by decide)
  · have shape : '<' :: (name ++ init.concat last) = '<' :: (name ++ init) ++ [last] := by simp
    rw [shape, List.getLast?_concat] at slash
    obtain rfl := Option.some.inj slash
    have trims : trimEnd (init ++ ['/']) = init ++ '/' :: trimEnd [] :=
      trimEnd_append_cons (by decide) init []
    refine rooted.unslashed ?_
    rw [List.drop_succ_cons, List.drop_left, List.concat_eq_append, trims]
    exact List.getLast?_concat

end Rooted

section Exchange

variable {front old new back name opening inner after : List Char}

/-- Whether a text holds the start of an element is known from its parts, if the first does not
end with the start of a tag. -/
theorem holdsElement_append_of_getLast? {text : List Char} (other : text.getLast? ≠ some '<')
    (rest : List Char) :
    holdsElement (text ++ rest) = (holdsElement text || holdsElement rest) := by
  induction text with
  | nil => rfl
  | cons c text ih =>
    cases text with
    | nil =>
      have apart : (c == '<') = false := beq_eq_false_iff_ne.2 fun same => other (same ▸ rfl)
      simp [holdsElement, apart]
    | cons next text =>
      show ((c == '<' && next.isAlpha) || holdsElement (next :: text ++ rest)) =
        (((c == '<' && next.isAlpha) || holdsElement (next :: text)) || holdsElement rest)
      rw [ih (by simpa using other), Bool.or_assoc]

/-- A name is not alike a text with an underscore. -/
theorem not_mem_of_alike {text rest : List Char} (same : alike text name = true)
    (named : tagName? rest = some name) : '_' ∉ text := by
  intro member
  obtain ⟨-, -, letters⟩ := exists_of_tagName? named
  have lower : '_'.toLower ∈ name.map Char.toLower := eq_of_beq same ▸ List.mem_map_of_mem member
  obtain ⟨c, listed, folded⟩ := List.mem_map.1 lower
  have folds : foldsTo '_' c = true := by simp [foldsTo, folded]
  rw [foldsTo_underscore] at folds
  exact absurd (eq_of_beq folds ▸ letters c listed) (by decide)

/-- A slash does not come to the end of the attributes of a tag by an exchange. -/
theorem Exchange.unslashed_trimEnd (exchange : Exchange front old new back) {before tag : List Char}
    (unslashed : (trimEnd (before ++ (old ++ tag))).getLast? ≠ some '/') :
    (trimEnd (before ++ (new ++ tag))).getLast? ≠ some '/' := by
  have unended {text : List Char} (filled : ∃ c ∈ text, isBlank c = false) :
      trimEnd text ≠ [] := by
    obtain ⟨c, member, other⟩ := filled
    intro empty
    have blank : text.all isBlank = true := isEmpty_trimEnd text ▸ List.isEmpty_iff.2 empty
    exact nomatch other.symm.trans (List.all_eq_true.1 blank c member)
  by_cases blank : ∀ c ∈ tag, isBlank c = true
  · rw [← List.append_assoc, trimEnd_append_of_forall blank,
      trimEnd_append_of_exists exchange.filled,
      List.getLast?_append_of_ne_nil _ (unended exchange.filled)]
    intro slash
    obtain ⟨blanks, whole, -⟩ := eq_trimEnd_append new
    have member : '/' ∈ new := by
      rw [whole]
      exact List.mem_append_left blanks (List.mem_of_getLast? slash)
    exact exchange.signsNew '/' member (by decide)
  · have filled : ∃ c ∈ tag, isBlank c = false := by simpa using blank
    have last (text : List Char) : (trimEnd (before ++ (text ++ tag))).getLast? =
        (trimEnd tag).getLast? := by
      rw [← List.append_assoc, trimEnd_append_of_exists filled,
        List.getLast?_append_of_ne_nil _ (unended filled)]
    rw [last] at unslashed ⊢
    exact unslashed

/-- Where the inside of a root and the last closing tag of its name are split, the text behind an
underscore is inside of the root. -/
theorem exists_inner {later : List Char} (underscore : later.getLast? = some '_')
    (unopened : '<' ∉ old) (filled : back ≠ []) (free : '_' ∉ trim after.dropLast)
    (same : later ++ (old ++ back) = inner ++ '<' :: '/' :: after) :
    ∃ middle, inner = later ++ (old ++ middle) ∧ back = middle ++ '<' :: '/' :: after := by
  have inside : ∃ middle, inner = later ++ middle ∧
      old ++ back = middle ++ '<' :: '/' :: after := by
    rcases List.append_eq_append_iff.1 same with ⟨middle, rfl, rest⟩ | ⟨middle, rfl, rest⟩
    · exact ⟨middle, rfl, rest⟩
    · rcases middle with _ | ⟨c, _ | ⟨d, middle⟩⟩
      · exact ⟨[], by simp, rest.symm⟩
      · obtain ⟨rfl, -⟩ := List.cons.inj rest
        rw [List.getLast?_concat] at underscore
        exact absurd underscore (by decide)
      · obtain ⟨rfl, second⟩ := List.cons.inj rest
        obtain ⟨rfl, rfl⟩ := List.cons.inj second
        have member : '_' ∈ middle := by
          cases middle with
          | nil => simp at underscore
          | cons c middle => exact List.mem_of_getLast? (by simpa using underscore)
        have others : old ++ back ≠ [] := by simp [filled]
        refine absurd (mem_trim (by decide) ?_) free
        show '_' ∈ (middle ++ (old ++ back)).dropLast
        rw [List.dropLast_append_of_ne_nil others]
        exact List.mem_append_left _ member
  obtain ⟨middle, rfl, rest⟩ := inside
  obtain ⟨between, rfl, rfl⟩ := append_of_append_eq_cons unopened rest
  exact ⟨between, rfl, rfl⟩

/-- A body keeps its root and the name of it when a text in it is exchanged. Where this is behind
the end of the first tag, the text is the number of a placeholder. -/
theorem Rooted.exchange (rooted : Rooted (front ++ (old ++ back)) name opening inner after)
    (exchange : Exchange front old new back) (filled : front ≠ [])
    (late : quoteBehind none (plain front) = none → front.getLast? = some '_') :
    ∃ opening shown, Rooted (front ++ (new ++ back)) name opening shown after ∧
      holdsElement shown = holdsElement inner := by
  obtain ⟨rest, rfl⟩ : ∃ rest, front = '<' :: rest := by
    obtain ⟨c, rest, rfl⟩ := List.exists_cons_of_ne_nil filled
    obtain rfl := Option.some.inj rooted.start
    exact ⟨rest, rfl⟩
  have tagged : tagName? rest = some name :=
    (tagName?_append exchange.seamOld.of_cons).symm.trans rooted.named
  have named : tagName? (rest ++ (new ++ back)) = some name :=
    (tagName?_append exchange.seamNew.of_cons).trans tagged
  have counts := (exchange.endsWithFirst_eq name 0).trans rooted.counts
  have cutOld := cutTag_eq_some_iff.2 ⟨rooted.whole, rooted.passes⟩
  rcases exchange.cutTag_cases with ⟨none, -⟩ | ⟨passes, tag, later, shape, cuts⟩ |
    ⟨tag, behind, rfl, found, cuts⟩
  · exact nomatch none.symm.trans cutOld
  · -- The text is behind the end of the first tag, and so between that and the last closing tag.
    obtain ⟨rfl, inside⟩ := Prod.mk.inj (Option.some.inj ((cuts _).symm.trans cutOld))
    have underscore : later.getLast? = some '_' := by
      have last := late passes
      rw [shape] at last
      cases later with
      | nil => simp at last
      | cons c later => simpa using last
    have free : '_' ∉ trim after.dropLast := not_mem_of_alike rooted.closes tagged
    obtain ⟨middle, rfl, rfl⟩ :=
      exists_inner underscore exchange.unopened.1 exchange.behind free inside
    refine ⟨tag, later ++ (new ++ middle), ⟨?_, rfl, named, ?_, rooted.last, rooted.ends,
      rooted.closes, rooted.unslashed, counts⟩, ?_⟩
    · rw [shape]
      simp
    · exact rooted.passes
    · have other : later.getLast? ≠ some '<' := by rw [underscore]; decide
      rw [holdsElement_append_of_getLast? other, holdsElement_append_of_getLast? other,
        Tree.holdsElement_append exchange.unopened.2,
        Tree.holdsElement_append exchange.unopened.1]
  · -- The text is in the first tag.
    obtain ⟨rfl, rfl⟩ := Prod.mk.inj (Option.some.inj (found.symm.trans cutOld))
    obtain ⟨whole, passes⟩ := cutTag_eq_some_iff.1 cuts
    refine ⟨_, inner, ⟨whole, rfl, named, passes, rooted.last, rooted.ends, rooted.closes, ?_,
      counts⟩, rfl⟩
    obtain ⟨left, rfl, -⟩ := exists_of_tagName? tagged
    have attributes (text : List Char) :
        ('<' :: (name ++ left) ++ (text ++ tag)).drop (name.length + 1) =
          left ++ (text ++ tag) := by
      simp
    have unslashed := rooted.unslashed
    rw [attributes] at unslashed ⊢
    exact exchange.unslashed_trimEnd unslashed

end Exchange

/-- A body has a root of a kind with a tag. -/
def HasRoot (kind : RootKind) (tag : Option String) (body : List Char) : Prop :=
  ∃ root, rootOf? body = some root ∧ root.kind = kind ∧ root.tag = tag

section HasRoot

variable {kind : RootKind} {tag : Option String} {masked : List Char} {body : String}

/-- Exchanging a text of a body keeps the kind and the name of its root. -/
theorem HasRoot.exchange {front old new back : List Char}
    (hasRoot : HasRoot kind tag (front ++ (old ++ back))) (exchange : Exchange front old new back)
    (filled : front ≠ [])
    (late : quoteBehind none (plain front) = none → front.getLast? = some '_') :
    HasRoot kind tag (front ++ (new ++ back)) := by
  obtain ⟨root, found, rfl, rfl⟩ := hasRoot
  obtain ⟨name, opening, inner, after, rooted, rfl⟩ := rootOf?_eq_some_iff.1 found
  obtain ⟨shown, others, kept, same⟩ := rooted.exchange exchange filled late
  refine ⟨_, rootOf?_eq_some_iff.2 ⟨name, shown, others, after, kept, rfl⟩, ?_, rfl⟩
  rw [rootOf, rootOf, same]

/-- Masked markup with a root starts with a tag, blanks aside, and is trimmed behind it. The tag
does not end with a slash. -/
theorem HasRoot.exists_opening (hasRoot : HasRoot kind tag (trim masked)) :
    ∃ blanks text rest, masked = blanks ++ (text ++ '>' :: rest) ∧
      (∀ c ∈ blanks, isBlank c = true) ∧ text.head? = some '<' ∧ text.getLast? ≠ some '/' ∧
      quoteBehind none (plain text) = some none ∧ trim masked = text ++ '>' :: trimEnd rest := by
  obtain ⟨root, found, -, -⟩ := hasRoot
  obtain ⟨name, opening, inner, after, rooted, -⟩ := rootOf?_eq_some_iff.1 found
  obtain ⟨front, whole, blank⟩ := eq_append_trimStart masked
  obtain ⟨back, ends, -⟩ := eq_trimEnd_append (trimStart masked)
  have shape : trimStart masked = opening ++ '>' :: (inner ++ '<' :: '/' :: after ++ back) := by
    rw [ends]
    show trim masked ++ back = _
    rw [rooted.whole]
    simp
  refine ⟨front, opening, _, shape ▸ whole, blank, rooted.head_opening, rooted.getLast?_opening,
    rooted.passes, ?_⟩
  rw [trim, shape]
  exact trimEnd_append_cons (by decide) _ _

/-- Markup with a root has it in its trimmed mask. -/
theorem hasRoot_analyze (rooted : (analyze body).kind ≠ .normal) :
    HasRoot (analyze body).kind (analyze body).tag (trim (mask body.toList)) := by
  rw [analyze] at rooted ⊢
  cases found : rootOf? (trim (mask body.toList)) with
  | none =>
    rw [found] at rooted
    exact absurd rfl rooted
  | some root => exact ⟨root, found, rfl, rfl⟩

/-- The analysis of markup says what root its trimmed mask has. -/
theorem HasRoot.analyze (hasRoot : HasRoot kind tag (trim (mask body.toList))) :
    (analyze body).kind = kind ∧ (analyze body).tag = tag := by
  obtain ⟨root, found, rfl, rfl⟩ := hasRoot
  rw [Markup.analyze, found]
  exact ⟨rfl, rfl⟩

end HasRoot

end ComponentPages.Markup
