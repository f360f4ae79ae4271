import TagLexer.Arguments.Parse

/-!
# Void formats

A format on the command line is one of those that exist, or it is void: a `--` stands in the place
of its word. That takes an argument in which the `--` is attached to the switch, so a command line
without an argument that ends in `--` behind something else has no void format
(`exists_trailing_of_void_format`).
-/

namespace TagLexer

namespace Argument

/-- A text that ends in `--` behind something else. -/
def Trailing (s : Text) : Prop := separatorText <:+ s ∧ s ≠ separatorText

/-- What an argument can be: a plain word other than `--`, the separator, something unknown, or a
switch with at most a shorter end of the argument attached to it. -/
inductive Telling (s : Text) : Argument → Prop
  | word : s ≠ separatorText → Telling s (.word s)
  | separator : Telling s .separator
  | unknown : Telling s (.unknown s)
  | switch {switch : Switch} {style : Style} {attached : Option Text} :
      (∀ word ∈ attached, word <:+ s ∧ word ≠ s) → Telling s (.switch switch style attached)

private theorem telling_unmatched {s : Text} (h : s ≠ separatorText) : Telling s (unmatched s) := by
  unfold unmatched
  split
  · exact .word h
  · exact .unknown

/-- What stands behind the first equals sign is a shorter end of the text. -/
private theorem suffix_of_splitAssigned {s stem word : Text} {attached : Option Text}
    (h : splitAssigned s = (stem, attached)) (hword : word ∈ attached) :
    word <:+ s ∧ word ≠ s := by
  obtain rfl : (splitAssigned s).2 = attached := congrArg Prod.snd h
  unfold splitAssigned at hword
  split at hword
  · cases hword
  next c value hdrop =>
  obtain rfl : value = word := Option.some.inj hword
  have hsuffix : c :: value <:+ s := hdrop ▸ List.dropWhile_suffix _
  refine ⟨(List.suffix_cons c value).trans hsuffix, ?_⟩
  rintro rfl
  have hlength := hsuffix.length_le
  rw [List.length_cons] at hlength
  omega

/-- An argument with two dashes in front is told apart as one of these. -/
private theorem telling_classifyLong {s : Text} {argument : Argument} (hne : s ≠ separatorText)
    (h : classifyLong s = .ok argument) : Telling s argument := by
  rcases hsplit : splitAssigned s with ⟨stem, attached⟩
  simp only [classifyLong, hsplit] at h
  split at h
  · obtain rfl := Except.ok.inj h
    exact telling_unmatched hne
  · obtain rfl := Except.ok.inj h
    exact .switch fun word hword => suffix_of_splitAssigned hsplit hword
  · cases h

/-- An argument is told apart as one of these. -/
theorem telling_classify {s : Text} {argument : Argument} (h : classify s = .ok argument) :
    Telling s argument := by
  unfold classify at h
  split at h
  · next second rest =>
    rcases hsplit : splitAssigned ('-' :: second :: rest) with ⟨stem, attached⟩
    simp only [hsplit] at h
    split at h
    · obtain rfl := Except.ok.inj h
      exact .separator
    next hne =>
    split at h
    · obtain rfl := Except.ok.inj h
      exact .switch fun word hword => suffix_of_splitAssigned hsplit hword
    split at h
    · exact telling_classifyLong hne h
    · obtain rfl := Except.ok.inj h
      unfold classifyShort
      split
      · refine .switch fun word hword => ?_
        obtain rfl : rest = word := Option.some.inj hword
        refine ⟨⟨['-', second], rfl⟩, fun heq => ?_⟩
        have hlength := congrArg List.length heq
        simp only [List.length_cons] at hlength
        omega
      · exact telling_unmatched hne
  · next hdash =>
    obtain rfl := Except.ok.inj h
    refine .word ?_
    rintro rfl
    exact hdash _ _ rfl

/-- No switch has a word that ends in `--`, neither attached to it nor as the next argument. -/
def Safe (arguments : List Argument) : Prop :=
  ∀ front switch style attached rest, arguments = front ++ .switch switch style attached :: rest →
    (∀ word ∈ attached, ¬ separatorText <:+ word) ∧ rest.head? ≠ some (.word separatorText)

theorem Safe.of_cons {argument : Argument} {rest : List Argument} (h : Safe (argument :: rest)) :
    Safe rest := by
  rintro front switch style attached after rfl
  exact h (argument :: front) switch style attached after rfl

/-- Plain words behind the separator are safe. -/
private theorem safe_words (words : List Text) : Safe (.separator :: words.map .word) := by
  intro front switch style attached rest heq
  have hmem : Argument.switch switch style attached ∈ Argument.separator :: words.map .word := by
    rw [heq]
    exact List.mem_append_right front (List.mem_cons_self ..)
  simp at hmem

/-- What arguments are told apart as: the first one is followed by what the others are told apart
as, or by plain words if it is the separator. -/
private theorem exists_of_classifyAll_cons {s : Text} {rest : List Text}
    {arguments : List Argument} (h : classifyAll (s :: rest) = .ok arguments) :
    arguments = .separator :: rest.map .word ∨
      ∃ argument later, Telling s argument ∧ classifyAll rest = .ok later ∧
        arguments = argument :: later := by
  unfold classifyAll at h
  cases hclassify : classify s with
  | error ambiguity => simp [hclassify, bind, Except.bind] at h
  | ok argument =>
    have htelling := telling_classify hclassify
    cases argument with
    | separator =>
      simp only [hclassify, bind, Except.bind, pure, Except.pure] at h
      exact .inl (Except.ok.inj h).symm
    | _ =>
      cases hrest : classifyAll rest with
      | error ambiguity => simp [hclassify, hrest, bind, Except.bind] at h
      | ok later =>
        simp only [hclassify, hrest, bind, Except.bind, pure, Except.pure] at h
        exact .inr ⟨_, later, htelling, rfl, (Except.ok.inj h).symm⟩

/-- The first argument is never told apart as a plain word `--`. -/
private theorem head?_ne_of_classifyAll {argv : List Text} {arguments : List Argument}
    (h : classifyAll argv = .ok arguments) : arguments.head? ≠ some (.word separatorText) := by
  cases argv with
  | nil =>
    obtain rfl := Except.ok.inj h
    simp
  | cons s rest =>
    rcases exists_of_classifyAll_cons h with rfl | ⟨argument, later, htelling, -, rfl⟩
    · simp
    · rintro hhead
      obtain rfl := Option.some.inj hhead
      generalize hword : Argument.word separatorText = argument at htelling
      cases htelling with
      | word hne => exact hne (Argument.word.inj hword).symm
      | _ => cases hword

/-- The arguments of a command line are safe if none of them ends in `--` behind something else. -/
theorem safe_of_classifyAll {argv : List Text} {arguments : List Argument}
    (h : classifyAll argv = .ok arguments) (hargv : ∀ s ∈ argv, ¬ Trailing s) :
    Safe arguments := by
  induction argv generalizing arguments with
  | nil =>
    obtain rfl := Except.ok.inj h
    intro front switch style attached rest heq
    simp at heq
  | cons s argv ih =>
    obtain ⟨hs, hargv⟩ := List.forall_mem_cons.mp hargv
    rcases exists_of_classifyAll_cons h with rfl | ⟨argument, later, htelling, hlater, rfl⟩
    · exact safe_words argv
    · intro front switch style attached rest heq
      cases front with
      | cons _ front =>
        obtain ⟨-, rfl⟩ := List.cons.inj heq
        exact ih hlater hargv front switch style attached rest rfl
      | nil =>
        obtain ⟨rfl, rfl⟩ := List.cons.inj heq
        refine ⟨fun word hword hsuffix => ?_, head?_ne_of_classifyAll hlater⟩
        cases htelling with
        | switch hattached =>
          obtain ⟨hend, hne⟩ := hattached word hword
          refine hs ⟨hsuffix.trans hend, ?_⟩
          rintro rfl
          exact hne (hsuffix.eq_of_length_le hend.length_le).symm

end Argument

namespace Arguments

open Argument

private theorem exists_of_bind_eq_ok {ε α β : Type} {x : Except ε α} {f : α → Except ε β} {b : β}
    (h : (x >>= f) = .ok b) : ∃ a, x = .ok a ∧ f a = .ok b := by
  cases x with
  | error e => cases h
  | ok a => exact ⟨a, rfl, h⟩

/-- Switches without words leave the format alone. -/
private theorem format_of_raiseAll {d d' : Draft} {switches : List Switch}
    (h : d.raiseAll switches = .ok d') : d'.format = d.format := by
  induction switches generalizing d with
  | nil =>
    obtain rfl := Except.ok.inj h
    rfl
  | cons switch switches ih =>
    obtain ⟨d₁, hraise, hlater⟩ := exists_of_bind_eq_ok h
    rw [ih hlater]
    cases switch <;> cases hraise <;> rfl

/-- A format is void only if its word is `--`. -/
private theorem format_of_assign {d d' : Draft} {switch : Switch} {word : Text}
    (h : d.assign switch word = .ok d') (hword : word ≠ separatorText)
    (hd : d.format ≠ some .void) : d'.format ≠ some .void := by
  have hvalue : Operand.ofWord word = .value word := if_neg hword
  cases switch with
  | format =>
    simp only [Draft.assign, hvalue] at h
    split at h
    · obtain rfl := Except.ok.inj h
      simp
    · cases h
  | _ =>
    obtain rfl := Except.ok.inj h
    exact hd

/-- A switch with no word attached has no word in its argument. -/
private theorem tail_alone_ne_given (switch last : Switch) (word : Text) :
    (alone switch).2 ≠ .given last word := by
  unfold alone
  split <;> simp

/-- The word of the last letter in a cluster is the end of the cluster. -/
private theorem suffix_of_cluster {switch last : Switch} {text word : Text}
    {switches : List Switch} (h : cluster switch text = .ok (switches, .given last word)) :
    word <:+ text := by
  induction text generalizing switch switches with
  | nil => cases h
  | cons c rest ih =>
    unfold cluster at h
    split at h
    · cases h
    next following hfollowing =>
    dsimp only [bind, Except.bind, pure, Except.pure] at h
    split at h
    · obtain ⟨-, htail⟩ := Prod.mk.inj (Except.ok.inj h)
      exact absurd htail (tail_alone_ne_given following last word)
    split at h
    · obtain ⟨-, htail⟩ := Prod.mk.inj (Except.ok.inj h)
      obtain ⟨-, rfl⟩ := Tail.given.inj htail
      exact List.suffix_cons c rest
    · obtain ⟨⟨inner, tail⟩, hinner, hpair⟩ := exists_of_bind_eq_ok h
      obtain ⟨-, rfl⟩ := Prod.mk.inj (Except.ok.inj hpair)
      exact (ih hinner).trans (List.suffix_cons c rest)

/-- A word that is found in the argument of a switch is the end of what is attached to it. -/
private theorem suffix_of_expand {switch last : Switch} {style : Style} {attached : Option Text}
    {word : Text} {switches : List Switch}
    (h : expand switch style attached = .ok (switches, .given last word)) :
    ∃ text ∈ attached, word <:+ text := by
  unfold expand at h
  split at h
  · exact absurd (congrArg Prod.snd (Except.ok.inj h)) (tail_alone_ne_given switch last word)
  next text =>
  refine ⟨text, rfl, ?_⟩
  split at h
  · obtain ⟨-, htail⟩ := Prod.mk.inj (Except.ok.inj h)
    obtain ⟨-, rfl⟩ := Tail.given.inj htail
    exact List.suffix_refl text
  split at h
  · exact suffix_of_cluster h
  · cases h

/-- Reading safe arguments never makes the format void. -/
theorem format_of_read {d d' : Draft} {arguments : List Argument} (hsafe : Safe arguments)
    (hread : read d arguments = .ok d') (hd : d.format ≠ some .void) :
    d'.format ≠ some .void := by
  fun_induction read d arguments with
  | case1 d =>
    obtain rfl := Except.ok.inj hread
    exact hd
  | case2 d w rest _ ih => exact ih hsafe.of_cons.of_cons hread hd
  | case3 d w rest _ _ ih => exact ih hsafe.of_cons.of_cons hread hd
  | case4 d w rest _ _ ih => exact ih hsafe.of_cons hread hd
  | case5 d w rest _ _ _ ih => exact ih hsafe.of_cons hread hd
  | case6 d w rest _ ih => exact ih hsafe.of_cons.of_cons hread hd
  | case7 d w rest _ _ ih => exact ih hsafe.of_cons.of_cons hread hd
  | case8 d rest _ ih => exact ih hsafe.of_cons hread hd
  | case9 d w rest ih => exact ih hsafe.of_cons hread hd
  | case10 => cases hread
  | case11 d switch style attached rest switches hexpand ih =>
    obtain ⟨d₁, hraise, hlater⟩ := exists_of_bind_eq_ok hread
    exact ih d₁ hsafe.of_cons hlater (format_of_raiseAll hraise ▸ hd)
  | case12 d switch style attached rest switches last w hexpand ih =>
    obtain ⟨d₁, hraise, hrest⟩ := exists_of_bind_eq_ok hread
    obtain ⟨d₂, hassign, hlater⟩ := exists_of_bind_eq_ok hrest
    obtain ⟨text, htext, hsuffix⟩ := suffix_of_expand hexpand
    have hw : w ≠ separatorText := by
      rintro rfl
      exact (hsafe [] switch style attached rest rfl).1 text htext hsuffix
    exact ih d₂ hsafe.of_cons hlater (format_of_assign hassign hw (format_of_raiseAll hraise ▸ hd))
  | case13 d switch style attached switches last hexpand w rest ih =>
    obtain ⟨d₁, hraise, hrest⟩ := exists_of_bind_eq_ok hread
    obtain ⟨d₂, hassign, hlater⟩ := exists_of_bind_eq_ok hrest
    have hw : w ≠ separatorText := by
      rintro rfl
      exact (hsafe [] switch style attached _ rfl).2 rfl
    exact ih d₂ hsafe.of_cons.of_cons hlater
      (format_of_assign hassign hw (format_of_raiseAll hraise ▸ hd))
  | case14 => cases hread

/-- A command line with a void format has an argument that ends in `--` behind something else. -/
theorem exists_trailing_of_void_format {argv : List Text} {args : Arguments}
    (hparse : parse argv = .ok args) (hvoid : args.format = some .void) :
    ∃ s ∈ argv, Trailing s := by
  apply Classical.byContradiction
  intro hnone
  have hargv : ∀ s ∈ argv, ¬ Trailing s := fun s hs htrailing => hnone ⟨s, hs, htrailing⟩
  unfold parse at hparse
  split at hparse
  · cases hparse
  next arguments hclassify =>
  obtain ⟨d, hread, hcomplete⟩ := exists_of_bind_eq_ok hparse
  have hformat := format_of_read (safe_of_classifyAll hclassify hargv) hread (by simp)
  unfold Draft.complete at hcomplete
  split at hcomplete
  · cases hcomplete
  · cases hcomplete
  · obtain rfl := Except.ok.inj hcomplete
    exact hformat hvoid

end Arguments

end TagLexer
