import TagLexer.Arguments.Parse

/-!
# The order of arguments

A command line that is understood consists of groups: the input, a switch with its word in the same
argument or in the next one, or a switch that takes no word. Each group asks for one thing, and
nothing that it asks for depends on the groups around it. So a command line comes to its input, to
the last word for each switch that takes one and to the switches that occur, and the order of its
groups matters only between those of one switch (`parse_of_groups`).
-/

namespace TagLexer.Arguments

/-- What a group of arguments asks for. -/
inductive Request where
  | input (word : Text)
  | output (word : Text)
  | format (format : Format)
  | config (word : Text)
  | watch
  | debug
  deriving DecidableEq, Repr

namespace Request

/-- The arguments that a request can be written with. The word of a switch may be anything but `--`
behind an equals sign; an argument of its own it is only if it does not start with a dash. -/
inductive Written : Request → List Text → Prop
  | input {word : Text} : word.head? ≠ some '-' → Written (.input word) [word]
  | outputAttached {word : Text} : word ≠ "--".toList →
      Written (.output word) ["--output=".toList ++ word]
  | outputApart {name word : Text} : name ∈ ["-o".toList, "--output".toList] →
      word.head? ≠ some '-' → Written (.output word) [name, word]
  | formatAttached (format : Format) :
      Written (.format format) ["--format=".toList ++ format.name]
  | formatApart {name : Text} (format : Format) : name ∈ ["-f".toList, "--format".toList] →
      Written (.format format) [name, format.name]
  | configAttached {word : Text} : word ≠ "--".toList →
      Written (.config word) ["--config=".toList ++ word]
  | configApart {word : Text} : word.head? ≠ some '-' →
      Written (.config word) ["--config".toList, word]
  | watch : Written .watch ["--watch".toList]
  | debug : Written .debug ["--debug".toList]

/-- The switch that a request is about; the input is about none. -/
def switch? : Request → Option Switch
  | input _ => none
  | output _ => some .output
  | format _ => some .format
  | config _ => some .config
  | watch => some .watch
  | debug => some .debug

/-- The input that is asked for. -/
def input? : Request → Option Text
  | input word => some word
  | _ => none

/-- The output that is asked for. -/
def output? : Request → Option (Operand Text)
  | output word => some (.value word)
  | _ => none

/-- The format that is asked for. -/
def format? : Request → Option (Operand Format)
  | format f => some (.value f)
  | _ => none

/-- The configuration that is asked for. -/
def config? : Request → Option (Operand Text)
  | config word => some (.value word)
  | _ => none

/-- What requests come to, together with an input: of several for one switch the last one counts. -/
def asked (input : Text) (requests : List Request) : Arguments :=
  { input
    output := (requests.filterMap output?).getLast?
    format := (requests.filterMap format?).getLast?
    config := (requests.filterMap config?).getLast?
    watch := decide (.watch ∈ requests)
    debug := decide (.debug ∈ requests) }

/-- Note a request. -/
def apply (d : Draft) : Request → Draft
  | input word => { d with input := some word }
  | output word => { d with output := some (.value word) }
  | format f => { d with format := some (.value f) }
  | config word => { d with config := some (.value word) }
  | watch => { d with watch := true }
  | debug => { d with debug := true }

/-- The switch and the word of a request that has both. -/
def assigned? : Request → Option (Switch × Text)
  | output word => some (.output, word)
  | format f => some (.format, f.name)
  | config word => some (.config, word)
  | _ => none

/-- The switch of a request that has no word. -/
def raised? : Request → Option Switch
  | watch => some .watch
  | debug => some .debug
  | _ => none

/-- Arguments, told apart, that stand for requests in a row. -/
inductive Told : List Request → List Argument → Prop
  | nil : Told [] []
  | input {requests : List Request} {arguments : List Argument} (word : Text) :
      Told requests arguments → Told (.input word :: requests) (.word word :: arguments)
  | attached {request : Request} {requests : List Request} {arguments : List Argument}
      {switch : Switch} {word : Text} : request.assigned? = some (switch, word) →
      word ≠ Argument.separatorText → Told requests arguments →
      Told (request :: requests) (.switch switch .name (some word) :: arguments)
  | apart {request : Request} {requests : List Request} {arguments : List Argument}
      {switch : Switch} {word : Text} (style : Style) :
      request.assigned? = some (switch, word) → word ≠ Argument.separatorText →
      Told requests arguments →
      Told (request :: requests) (.switch switch style none :: .word word :: arguments)
  | raised {request : Request} {requests : List Request} {arguments : List Argument}
      {switch : Switch} : request.raised? = some switch → Told requests arguments →
      Told (request :: requests) (.switch switch .name none :: arguments)

end Request

/-- A group of arguments that belong together. -/
structure Group where
  /-- What the group asks for. -/
  request : Request
  /-- The arguments of the group. -/
  arguments : List Text
  /-- The request can be written with these arguments. -/
  written : request.Written arguments

open Request

/-- A word that does not start with a dash is a plain word. -/
private theorem classify_of_head {word : Text} (h : word.head? ≠ some '-') :
    Argument.classify word = .ok (.word word) := by
  unfold Argument.classify
  split
  · exact absurd rfl h
  · rfl

private theorem classifyAll_cons {s : Text} {argument : Argument} {rest : List Text}
    {arguments : List Argument} (h : Argument.classify s = .ok argument)
    (hne : argument ≠ .separator) (hrest : Argument.classifyAll rest = .ok arguments) :
    Argument.classifyAll (s :: rest) = .ok (argument :: arguments) := by
  cases argument with
  | separator => exact absurd rfl hne
  | _ => simp only [Argument.classifyAll, h, hrest, bind, Except.bind, pure, Except.pure]

/-- A word that does not start with a dash is not `--`. -/
private theorem ne_separatorText_of_head {word : Text} (h : word.head? ≠ some '-') :
    word ≠ Argument.separatorText := by
  rintro rfl
  exact h rfl

/-- No name of a format starts with a dash. -/
private theorem head?_name_ne (format : Format) : format.name.head? ≠ some '-' := by
  cases format <;> decide

section Telling

variable {request : Request} {requests : List Request} {rest : List Text}
  {arguments : List Argument} {switch : Switch} {word : Text}

/-- A switch with its word in the same argument is told apart whatever stands behind it. -/
private theorem exists_told_attached {s : Text}
    (hclass : Argument.classify s = .ok (.switch switch .name (some word)))
    (hassigned : request.assigned? = some (switch, word)) (hword : word ≠ Argument.separatorText)
    (htold : Told requests arguments) (hrest : Argument.classifyAll rest = .ok arguments) :
    ∃ longer, Told (request :: requests) longer ∧
      Argument.classifyAll ([s] ++ rest) = .ok longer :=
  ⟨_, .attached hassigned hword htold, classifyAll_cons hclass (by simp) hrest⟩

/-- A switch with its word in the next argument is told apart whatever stands behind it. -/
private theorem exists_told_apart {name : Text} {style : Style}
    (hclass : Argument.classify name = .ok (.switch switch style none))
    (hassigned : request.assigned? = some (switch, word)) (hword : word.head? ≠ some '-')
    (htold : Told requests arguments) (hrest : Argument.classifyAll rest = .ok arguments) :
    ∃ longer, Told (request :: requests) longer ∧
      Argument.classifyAll ([name, word] ++ rest) = .ok longer :=
  ⟨_, .apart style hassigned (ne_separatorText_of_head hword) htold,
    classifyAll_cons hclass (by simp) (classifyAll_cons (classify_of_head hword) (by simp) hrest)⟩

/-- A group of arguments is told apart whatever stands behind it. -/
private theorem Request.Written.exists_told {words : List Text} (h : request.Written words)
    (htold : Told requests arguments) (hrest : Argument.classifyAll rest = .ok arguments) :
    ∃ longer, Told (request :: requests) longer ∧
      Argument.classifyAll (words ++ rest) = .ok longer := by
  cases h with
  | @input word hword =>
    exact ⟨_, .input word htold, classifyAll_cons (classify_of_head hword) (by simp) hrest⟩
  | outputAttached hword => exact exists_told_attached rfl rfl hword htold hrest
  | outputApart hname hword =>
    simp only [List.mem_cons, List.not_mem_nil, or_false] at hname
    rcases hname with rfl | rfl <;> exact exists_told_apart rfl rfl hword htold hrest
  | formatAttached format =>
    exact exists_told_attached rfl rfl (ne_separatorText_of_head (head?_name_ne format)) htold hrest
  | formatApart format hname =>
    simp only [List.mem_cons, List.not_mem_nil, or_false] at hname
    rcases hname with rfl | rfl <;>
      exact exists_told_apart rfl rfl (head?_name_ne format) htold hrest
  | configAttached hword => exact exists_told_attached rfl rfl hword htold hrest
  | configApart hword => exact exists_told_apart rfl rfl hword htold hrest
  | watch => exact ⟨_, .raised rfl htold, classifyAll_cons rfl (by simp) hrest⟩
  | debug => exact ⟨_, .raised rfl htold, classifyAll_cons rfl (by simp) hrest⟩

end Telling

/-- The arguments of groups in a row stand for what the groups ask for. -/
theorem exists_told (groups : List Group) :
    ∃ arguments, Told (groups.map Group.request) arguments ∧
      Argument.classifyAll (groups.flatMap Group.arguments) = .ok arguments := by
  induction groups with
  | nil => exact ⟨[], .nil, rfl⟩
  | cons group groups ih =>
    obtain ⟨arguments, htold, hrest⟩ := ih
    exact group.written.exists_told htold hrest

section Reading

variable {d : Draft} {switch : Switch} {word : Text} {rest : List Argument}

private theorem read_word (hd : d.input = none) (hrest : rest.head? ≠ some .separator) :
    read d (.word word :: rest) = read { d with input := some word } rest := by
  rw [read]
  · simp only [hd]
  · rintro arguments rfl
    exact hrest rfl

private theorem read_attached (h : switch.takesWord = true) :
    read d (.switch switch .name (some word) :: rest) =
      (d.assign switch word).bind fun d => read d rest := by
  rw [read]
  simp only [expand, h, if_true]
  rfl

private theorem read_apart (style : Style) (h : switch.takesWord = true) :
    read d (.switch switch style none :: .word word :: rest) =
      (d.assign switch word).bind fun d => read d rest := by
  rw [read]
  simp only [expand, alone, h, if_true]
  rfl

private theorem read_raised (h : switch.takesWord = false) :
    read d (.switch switch .name none :: rest) = (d.raise switch).bind fun d => read d rest := by
  rw [read]
  simp only [expand, alone, h, Bool.false_eq_true, if_false, Draft.raiseAll, List.foldlM_cons,
    List.foldlM_nil]
  cases d.raise switch <;> rfl

end Reading

section Noting

variable {request : Request} {switch : Switch} {word : Text}

/-- Reading a switch with its word notes what the request asks for. -/
private theorem assign_eq (h : request.assigned? = some (switch, word))
    (hword : word ≠ Argument.separatorText) (d : Draft) :
    d.assign switch word = .ok (request.apply d) := by
  have hvalue : Operand.ofWord word = .value word := if_neg hword
  cases request with
  | output w | config w =>
    obtain ⟨rfl, rfl⟩ := Prod.mk.inj (Option.some.inj h)
    simp only [Draft.assign, hvalue, apply]
  | format f =>
    obtain ⟨rfl, rfl⟩ := Prod.mk.inj (Option.some.inj h)
    cases f <;> rfl
  | _ => cases h

/-- Reading a switch without a word notes what the request asks for. -/
private theorem raise_eq (h : request.raised? = some switch) (d : Draft) :
    d.raise switch = .ok (request.apply d) := by
  cases request with
  | watch | debug =>
    obtain rfl := Option.some.inj h
    rfl
  | _ => cases h

private theorem takesWord_of_assigned? (h : request.assigned? = some (switch, word)) :
    switch.takesWord = true := by
  cases request with
  | output w | format f | config w =>
    obtain ⟨rfl, rfl⟩ := Prod.mk.inj (Option.some.inj h)
    rfl
  | _ => cases h

private theorem takesWord_of_raised? (h : request.raised? = some switch) :
    switch.takesWord = false := by
  cases request with
  | watch | debug =>
    obtain rfl := Option.some.inj h
    rfl
  | _ => cases h

end Noting

namespace Request

section Fields

variable (d : Draft) (request : Request)

private theorem input_apply : (request.apply d).input = request.input?.or d.input := by
  cases request <;> rfl

private theorem output_apply : (request.apply d).output = request.output?.or d.output := by
  cases request <;> rfl

private theorem format_apply : (request.apply d).format = request.format?.or d.format := by
  cases request <;> rfl

private theorem config_apply : (request.apply d).config = request.config?.or d.config := by
  cases request <;> rfl

private theorem watch_apply : (request.apply d).watch = (decide (watch = request) || d.watch) := by
  cases request <;> rfl

private theorem debug_apply : (request.apply d).debug = (decide (debug = request) || d.debug) := by
  cases request <;> rfl

private theorem extras_apply : (request.apply d).extras = d.extras := by
  cases request <;> rfl

private theorem output?_eq_none (h : request.switch? ≠ some .output) : request.output? = none := by
  cases request with
  | output word => exact absurd rfl h
  | _ => rfl

private theorem format?_eq_none (h : request.switch? ≠ some .format) : request.format? = none := by
  cases request with
  | format f => exact absurd rfl h
  | _ => rfl

private theorem config?_eq_none (h : request.switch? ≠ some .config) : request.config? = none := by
  cases request with
  | config word => exact absurd rfl h
  | _ => rfl

end Fields

variable {requests : List Request} {arguments : List Argument}

private theorem Told.head?_ne_separator (h : Told requests arguments) :
    arguments.head? ≠ some .separator := by
  cases h <;> simp

/-- There is at most one input, in what has been understood so far and in the requests together. -/
def OneInput (d : Draft) (requests : List Request) : Prop :=
  (d.input.toList ++ requests.filterMap input?).length ≤ 1

/-- Another request keeps the number of inputs. -/
private theorem OneInput.apply {d : Draft} {request : Request}
    (h : OneInput d (request :: requests)) : OneInput (request.apply d) requests := by
  unfold OneInput at h ⊢
  rw [input_apply]
  cases hinput : request.input? with
  | none =>
    rw [List.filterMap_cons_none hinput] at h
    exact h
  | some word =>
    rw [List.filterMap_cons_some hinput, List.length_append, List.length_cons] at h
    rw [Option.some_or, List.length_append, Option.toList_some, List.length_singleton]
    omega

/-- Reading arguments notes the requests that they stand for one after the other. -/
theorem Told.read_eq (h : Told requests arguments) {d : Draft} (hone : OneInput d requests) :
    read d arguments = .ok (requests.foldl Request.apply d) := by
  induction h generalizing d with
  | nil => rfl
  | input word htold ih =>
    have hnone : d.input = none := by
      cases hinput : d.input with
      | none => rfl
      | some other => simp [OneInput, hinput, input?] at hone
    rw [read_word hnone htold.head?_ne_separator]
    exact ih hone.apply
  | attached hassigned hword _ ih =>
    rw [read_attached (takesWord_of_assigned? hassigned), assign_eq hassigned hword]
    exact ih hone.apply
  | apart style hassigned hword _ ih =>
    rw [read_apart style (takesWord_of_assigned? hassigned), assign_eq hassigned hword]
    exact ih hone.apply
  | raised hraised _ ih =>
    rw [read_raised (takesWord_of_raised? hraised), raise_eq hraised]
    exact ih hone.apply

/-- The latest of the requests counts for what only one of them can settle. -/
private theorem latest_foldl_apply {α : Type} {field : Draft → Option α}
    {value? : Request → Option α}
    (h : ∀ d request, field (Request.apply d request) = (value? request).or (field d)) (d : Draft) :
    field (requests.foldl Request.apply d) = (requests.filterMap value?).getLast?.or (field d) := by
  induction requests generalizing d with
  | nil => rfl
  | cons request requests ih =>
    rw [List.foldl_cons, ih, h]
    cases hvalue : value? request with
    | none => rw [List.filterMap_cons_none hvalue, Option.none_or]
    | some value =>
      rw [List.filterMap_cons_some hvalue, List.getLast?_cons]
      cases (requests.filterMap value?).getLast? <;> rfl

/-- A switch without a word counts if it is asked for anywhere. -/
private theorem flag_foldl_apply {flag : Draft → Bool} {raised : Request}
    (h : ∀ d request, flag (Request.apply d request) = (decide (raised = request) || flag d))
    (d : Draft) :
    flag (requests.foldl Request.apply d) = (decide (raised ∈ requests) || flag d) := by
  induction requests generalizing d with
  | nil => simp
  | cons request requests ih =>
    rw [List.foldl_cons, ih, h, ← Bool.or_assoc, Bool.or_comm (decide (raised ∈ requests))]
    simp only [List.mem_cons, Bool.decide_or]

private theorem extras_foldl_apply (d : Draft) :
    (requests.foldl Request.apply d).extras = d.extras := by
  induction requests generalizing d with
  | nil => rfl
  | cons request requests ih =>
    rw [List.foldl_cons, ih, extras_apply]

/-- What has been understood comes to what the requests ask for. -/
theorem complete_foldl_apply {input : Text} (h : requests.filterMap input? = [input]) :
    (requests.foldl Request.apply {}).complete = .ok (asked input requests) := by
  have hinput : (requests.foldl Request.apply {}).input = some input := by
    rw [latest_foldl_apply input_apply, h]
    rfl
  have hextras : (requests.foldl Request.apply {}).extras = [] := extras_foldl_apply {}
  simp only [Draft.complete, hinput, hextras, latest_foldl_apply output_apply,
    latest_foldl_apply format_apply, latest_foldl_apply config_apply,
    flag_foldl_apply watch_apply, flag_foldl_apply debug_apply, Option.or_none, Bool.or_false,
    asked]

variable {others : List Request}

/-- What is read off the requests for one switch is the same for requests that agree on it. -/
private theorem filterMap_eq_of_filter_eq {α : Type} {value? : Request → Option α}
    {switch : Switch} (hvalue : ∀ request, request.switch? ≠ some switch → value? request = none)
    (h : requests.filter (fun r => r.switch? = some switch) =
      others.filter fun r => r.switch? = some switch) :
    requests.filterMap value? = others.filterMap value? := by
  have hfilter : ∀ rs : List Request,
      (rs.filter fun r => r.switch? = some switch).filterMap value? = rs.filterMap value? := by
    intro rs
    rw [List.filterMap_filter]
    congr 1
    funext request
    by_cases hswitch : request.switch? = some switch
    · simp [hswitch]
    · simp [hswitch, hvalue request hswitch]
  rw [← hfilter requests, h, hfilter others]

/-- Requests in another order come to the same if those for one switch keep theirs. -/
theorem asked_eq_of_perm (input : Text) (hperm : requests.Perm others)
    (hsame : ∀ switch, requests.filter (fun r => r.switch? = some switch) =
      others.filter fun r => r.switch? = some switch) :
    asked input requests = asked input others := by
  have houtput := filterMap_eq_of_filter_eq output?_eq_none (hsame .output)
  have hformat := filterMap_eq_of_filter_eq format?_eq_none (hsame .format)
  have hconfig := filterMap_eq_of_filter_eq config?_eq_none (hsame .config)
  simp only [asked, houtput, hformat, hconfig, hperm.mem_iff]

end Request

/-- A command line of groups with one input comes to what its groups ask for. -/
theorem parse_flatMap_arguments {groups : List Group} {input : Text}
    (h : (groups.map Group.request).filterMap input? = [input]) :
    parse (groups.flatMap Group.arguments) = .ok (asked input (groups.map Group.request)) := by
  obtain ⟨arguments, htold, hclassify⟩ := exists_told groups
  have hone : OneInput {} (groups.map Group.request) := by
    rw [OneInput, h]
    exact Nat.le_refl 1
  simp only [parse, hclassify, htold.read_eq hone]
  exact complete_foldl_apply h

/-- Take a command line of groups, exactly one of which is the input. It is understood, and it comes
to that input, to the last word for each switch that takes one and to the switches without words
that occur. A command line with the same groups in another order comes to the same as long as the
groups for one switch keep their order. -/
theorem parse_of_groups {groups : List Group} {input : Text}
    (h : (groups.map Group.request).filterMap Request.input? = [input]) :
    parse (groups.flatMap Group.arguments) =
        .ok (Request.asked input (groups.map Group.request)) ∧
      ∀ others : List Group, groups.Perm others →
        (∀ switch, groups.filter (fun g => g.request.switch? = some switch) =
          others.filter fun g => g.request.switch? = some switch) →
        parse (others.flatMap Group.arguments) = parse (groups.flatMap Group.arguments) := by
  refine ⟨parse_flatMap_arguments h, fun others hperm hsame => ?_⟩
  have hrequests := hperm.map Group.request
  have hinput : (others.map Group.request).filterMap input? = [input] := by
    have hinputs := hrequests.filterMap input?
    rw [h] at hinputs
    exact (List.singleton_perm.mp hinputs).symm
  rw [parse_flatMap_arguments h, parse_flatMap_arguments hinput]
  refine congrArg _ (asked_eq_of_perm input hrequests fun switch => ?_).symm
  have hmap := congrArg (List.map Group.request) (hsame switch)
  rw [List.filter_map, List.filter_map]
  exact hmap

/-- The input may change places with a switch and its word; of two formats the last one counts. -/
theorem parse_of_groups_swapped :
    parse ["-f".toList, "json".toList, "a b".toList, "--output=-=x".toList,
        "--format=text".toList, "--debug".toList] =
      .ok
        { input := "a b".toList
          output := some (.value "-=x".toList)
          format := some (.value .text)
          config := none
          watch := false
          debug := true } ∧
      parse ["a b".toList, "-f".toList, "json".toList, "--output=-=x".toList,
          "--format=text".toList, "--debug".toList] =
        parse ["-f".toList, "json".toList, "a b".toList, "--output=-=x".toList,
          "--format=text".toList, "--debug".toList] := by
  let json : Group := ⟨.format .json, _, .formatApart .json (List.mem_cons_self ..)⟩
  let input : Group := ⟨.input "a b".toList, _, .input (by decide)⟩
  let later : List Group :=
    [⟨.output "-=x".toList, _, .outputAttached (by decide)⟩,
      ⟨.format .text, _, .formatAttached .text⟩, ⟨.debug, _, .debug⟩]
  have hinput : ((json :: input :: later).map Group.request).filterMap Request.input? =
      ["a b".toList] := rfl
  obtain ⟨hparse, hsame⟩ := parse_of_groups hinput
  have hswitch : ∀ switch,
      (json :: input :: later).filter (fun g => g.request.switch? = some switch) =
        (input :: json :: later).filter fun g => g.request.switch? = some switch := by
    intro switch
    cases switch <;> rfl
  exact ⟨hparse, hsame _ (.swap _ _ _) hswitch⟩

end TagLexer.Arguments
