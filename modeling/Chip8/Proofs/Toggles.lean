import Chip8.Proofs.Commands
import Chip8.Proofs.Numerals
import Chip8.Proofs.Rendering

/-!
# Toggles

A breakpoint command sets a breakpoint or removes it, and a key command holds a key or lets go of
it. So what is set in the end is what was named an odd number of times, whatever else was entered.
An address is named by any hexadecimal spelling of any integer that leads to it modulo 4096, and the
spelling in which the session tells of a breakpoint is one of them.

## Key results

- `Text.words_verb`: a line of a verb and one argument
- `Command.says_breakpoint`, `Command.says_view`: what a line with a spelled address says
- `Session.enterAll_toggled`: what is toggled by a command depends on how often it was entered
- `Notice.apart`: only toggled breakpoints are told of in these words
- `Session.toggle_parity`: breakpoints, held keys and addresses that are typed back
-/

namespace Chip8

/-! ## Words of a line -/

namespace Text

/-- Letters that are not blank are gathered into the word, last one first. -/
private theorem wordsFrom_append {cs : List Char} (h : ∀ c ∈ cs, isBlank c = false)
    (word rest : List Char) :
    wordsFrom word (cs ++ rest) = wordsFrom (cs.reverse ++ word) rest := by
  induction cs generalizing word with
  | nil => rfl
  | cons c cs ih =>
    obtain ⟨hc, hcs⟩ := List.forall_mem_cons.1 h
    rw [List.cons_append, wordsFrom, hc, if_neg Bool.false_ne_true, ih hcs, List.reverse_cons,
      List.append_assoc]
    rfl

/-- A verb of one letter and an argument with a space between them are the words of the line. -/
theorem words_verb {line text : String} {verb : Char}
    (hline : line.toList = verb :: ' ' :: text.toList) (hverb : isBlank verb = false)
    (hne : text.toList ≠ []) (htext : ∀ c ∈ text.toList, isBlank c = false) :
    words line = [String.singleton verb, text] := by
  have hspace : isBlank ' ' = true := by decide
  have hword : (text.toList.reverse ++ []).isEmpty = false := by
    simp [hne]
  rw [← List.append_nil text.toList] at hline
  rw [words, hline, wordsFrom, hverb, if_neg Bool.false_ne_true, wordsFrom, if_pos hspace,
    List.isEmpty_cons, if_neg Bool.false_ne_true, wordsFrom_append htext, wordsFrom, hword,
    if_neg Bool.false_ne_true]
  simp only [List.append_nil, List.reverse_reverse, List.map_cons, List.map_nil,
    String.ofList_toList]
  rfl

/-! ## Spelled addresses -/

/-- A spelling begins with a minus sign or with a digit of either case. -/
private theorem WritesHex.exists_cons {n : Int} {cs : List Char} (h : WritesHex n cs) :
    ∃ c rest, cs = c :: rest ∧ (c = '-' ∨ ∃ d : Fin 16, c.toUpper = hexDigit d) := by
  obtain ⟨mark, hmark, zeros, digits, hdigits, rfl⟩ := h
  have hzero : ∃ d : Fin 16, '0'.toUpper = hexDigit d := ⟨0, by decide⟩
  -- The sign stands first, or the mark, or a zero, or the first digit.
  split
  · exact ⟨'-', _, rfl, .inl rfl⟩
  · rw [List.nil_append]
    simp only [marks, List.mem_cons, List.not_mem_nil, or_false] at hmark
    obtain rfl | rfl | rfl := hmark
    · cases zeros with
      | succ zeros => exact ⟨'0', _, rfl, .inr hzero⟩
      | zero =>
        cases digits with
        | nil => exact absurd hdigits.symm (spells_hexDigits n.natAbs).1
        | cons c rest =>
          have hmem : c.toUpper ∈ hexDigits n.natAbs := hdigits ▸ List.mem_cons_self
          exact ⟨c, rest, rfl, .inr (exists_hexDigit_of_mem hmem)⟩
    · exact ⟨'0', _, rfl, .inr hzero⟩
    · exact ⟨'0', _, rfl, .inr hzero⟩

/-- No spelling is the word for the index. -/
private theorem WritesHex.lower_ne {n : Int} {text : String} (h : WritesHex n text.toList) :
    lower text ≠ "i" := by
  obtain ⟨c, rest, hcs, hc⟩ := h.exists_cons
  have hforms : c ≠ 'Σ' ∧ c ≠ 'İ' ∧ lowerChar c ≠ 'i' := by
    have upper : ∀ d : Fin 16, hexDigit d ≠ 'Σ' ∧ hexDigit d ≠ 'İ' ∧
        lowerChar (hexDigit d) ≠ 'i' := by decide +kernel
    have lower : ∀ d : Fin 16, (hexDigit d).toLower ≠ 'Σ' ∧ (hexDigit d).toLower ≠ 'İ' ∧
        lowerChar (hexDigit d).toLower ≠ 'i' := by decide +kernel
    -- The first letter is a minus sign or a digit, and none of these becomes an `i`.
    obtain rfl | ⟨d, hd⟩ := hc
    · decide +kernel
    · obtain rfl | rfl := eq_hexDigit_or_toLower hd
      · exact upper d
      · exact lower d
  intro heq
  have hfirst := congrArg (fun text => text.toList.head?) heq
  rw [lower, hcs, lowerFrom, if_neg hforms.1, if_neg hforms.2.1, String.toList_ofList] at hfirst
  exact hforms.2.2 (Option.some.inj hfirst)

/-- An address as it is shown is a spelling of it. -/
private theorem writesHex_text (a : Address) : WritesHex a.val a.text.toList := by
  -- Digits are written in upper case already.
  have hupper : (hexDigits a.val).map Char.toUpper = hexDigits a.val := by
    have digits : ∀ d : Fin 16, (hexDigit d).toUpper = hexDigit d := by decide
    refine (List.map_congr_left fun c hc => ?_).trans (List.map_id _)
    obtain ⟨d, rfl⟩ := exists_hexDigit_of_mem hc
    exact digits d
  have hsign : ¬((a.val : Int) < 0) := by omega
  refine ⟨['0', 'x'], by decide, 3 - (hexDigits a.val).length, hexDigits a.val, hupper, ?_⟩
  rw [if_neg hsign, Address.text, String.toList_append, toList_hex, List.nil_append]
  rfl

end Text

namespace Debugger

variable {ρ α : Type} {n : Int} {text line : String} {command : Command}

namespace Command

/-- The words of a line with a verb of one letter and a spelled integer. -/
private theorem asks_writesHex {verb : Char} {verbs : List String}
    (h : Text.WritesHex n text.toList)
    (hline : line.toList = verb :: ' ' :: text.toList) (hverb : Text.isBlank verb = false)
    (hverbs : Text.lower (String.singleton verb) ∈ verbs) : Asks line verbs [text] := by
  obtain ⟨c, rest, hcs, -⟩ := h.exists_cons
  have hne : text.toList ≠ [] := hcs ▸ List.cons_ne_nil c rest
  exact ⟨_, Text.words_verb hline hverb hne h.isBlank_eq_false, hverbs⟩

/-- A line of the verb for breakpoints and a spelled integer says its address. -/
theorem says_breakpoint (h : Text.WritesHex n text.toList) :
    Says ("b " ++ text) (.breakpoint (Address.ofInt n)) := by
  have hline : ("b " ++ text).toList = 'b' :: ' ' :: text.toList := by
    rw [String.toList_append]
    rfl
  refine .breakpoint (asks_writesHex h hline (by decide) (by decide +kernel)) ?_
  rw [← h.integer?, String.ofList_toList]

/-- A line of the verb for the view and a spelled integer says its address. -/
theorem says_view (h : Text.WritesHex n text.toList) :
    Says ("g " ++ text) (.view (some (Address.ofInt n))) := by
  have hline : ("g " ++ text).toList = 'g' :: ' ' :: text.toList := by
    rw [String.toList_append]
    rfl
  refine .view (asks_writesHex h hline (by decide) (by decide +kernel)) h.lower_ne ?_
  rw [← h.integer?, String.ofList_toList]

instance : Decidable (Says line command) :=
  decidable_of_iff ((ofLine line).toOption = some command) <| by
    rw [← ofLine_eq_ok_iff]
    cases ofLine line with
    | error refusal => exact iff_of_false (by simp [Except.toOption]) (by simp)
    | ok said => simp [Except.toOption]

end Command

/-! ## What is told of breakpoints -/

namespace Notice

/-- The words in front of the address of a toggled breakpoint. -/
def toggleWords (present : Bool) : String :=
  if present then "Breakpoint set at " else "Breakpoint removed at "

/-- No text that begins in this way begins with the words of a toggled breakpoint. -/
def Apart (beginning : String) : Prop :=
  ∀ present, ¬beginning.toList <+: (toggleWords present).toList ∧
    ¬(toggleWords present).toList <+: beginning.toList

instance (beginning : String) : Decidable (Apart beginning) :=
  inferInstanceAs (Decidable (∀ present, ¬beginning.toList <+: (toggleWords present).toList ∧
    ¬(toggleWords present).toList <+: beginning.toList))

/-- A text that begins apart stays apart, whatever follows. -/
theorem Apart.append {beginning : String} (h : Apart beginning) (rest : String) :
    Apart (beginning ++ rest) := by
  intro present
  have hfirst : beginning.toList <+: (beginning ++ rest).toList := by
    rw [String.toList_append]
    exact List.prefix_append _ _
  refine ⟨fun hlong => (h present).1 (hfirst.trans hlong), fun hwords => ?_⟩
  -- Two beginnings of one text are comparable, and `Apart` excludes both orders.
  obtain hshort | hlong := List.prefix_or_prefix_of_prefix hfirst hwords
  · exact (h present).1 hshort
  · exact (h present).2 hlong

/-- Joined lines are apart if the first one is. -/
private theorem Apart.intercalate {separator first second : String} {rest : List String}
    (h : Apart first) :
    Apart (separator.intercalate (first :: second :: rest)) := by
  rw [String.intercalate_cons_cons, String.append_assoc]
  exact h.append _

/-- A text that is apart never has the words of a toggled breakpoint. -/
private theorem Apart.ne {text : String} (h : Apart text) (present : Bool) (shown : String) :
    text ≠ toggleWords present ++ shown := by
  rintro rfl
  refine (h present).2 ?_
  rw [String.toList_append]
  exact List.prefix_append _ _

/-- Refusals have words of their own. -/
private theorem apart_refusal (refusal : Refusal) : Apart refusal.message := by
  cases refusal with
  | missingSpeed | lowSpeed | lowLimit | missingKey | missingBreakpoint | missingView =>
    decide +kernel
  | badSpeed text => exact .append (by decide +kernel : Apart "Invalid hz: ") _
  | badLimit text => exact .append (by decide +kernel : Apart "Invalid max_steps: ") _
  | badTickCount text => exact .append (by decide +kernel : Apart "Invalid tick count: ") _
  | badKey text => exact .append (by decide +kernel : Apart "Invalid key: ") _
  | badAddress text => exact .append (by decide +kernel : Apart "Invalid address: ") _
  | unknownVerb verb =>
    exact .append (.append (.append (by decide +kernel : Apart "Unknown command: ") _) _) _

/-- Only toggled breakpoints are told of in their words. -/
theorem apart (notice : Notice) :
    (∃ a present, notice = .breakpointToggled a present) ∨ Apart notice.message := by
  cases notice with
  | breakpointToggled a present => exact .inl ⟨a, present, rfl⟩
  | ready => exact .inr (by decide +kernel)
  | alreadyHalted fault => exact .inr (.append (by decide +kernel : Apart "VM is halted: ") _)
  | fatal fault => exact .inr (.append (by decide +kernel : Apart "Fatal: ") _)
  | stepped pc cycles waiting =>
    exact .inr (.append (.append (.append (by decide +kernel : Apart "Stepped to ") _) _) _)
  | fatalAfter steps fault =>
    exact .inr (.append (.append (.append (by decide +kernel : Apart "Fatal after ") _) _) _)
  | breakpointHit pc steps =>
    exact .inr (.append (.append (by decide +kernel : Apart "Breakpoint hit at ") _) _)
  | waitingForKey pc steps =>
    exact .inr (.append (.append (by decide +kernel : Apart "Waiting for key at ") _) _)
  | limitReached limit =>
    exact .inr (.append (.append (by decide +kernel : Apart "Stopped after ") _) _)
  | ticked count timers =>
    exact .inr (.append (.append (.append (.append (.append
      (by decide +kernel : Apart "Ticked ") _) _) _) _) _)
  | running hz steps pc =>
    exact .inr (.append (.append (.append (.append (.append (.append
      (by decide +kernel : Apart "Running at ") _) _) _) _) _) _)
  | timedFatal steps fault =>
    exact .inr (.append (.append (.append (by decide +kernel : Apart "Fatal after ") _) _) _)
  | timedBreakpoint pc steps hz =>
    exact .inr (.append (.append (by decide +kernel : Apart "Breakpoint hit at ") _) _)
  | timedLimit steps =>
    exact .inr (.append (.append (by decide +kernel : Apart "Stopped after ") _) _)
  | paused steps hz =>
    exact .inr (.append (.append (.append (.append
      (by decide +kernel : Apart "Paused after ") _) _) _) _)
  | keyToggled key down =>
    exact .inr (.append (.append (by decide +kernel : Apart "Key ") _) _)
  | viewFollows => exact .inr (by decide +kernel)
  | viewSet address => exact .inr (.append (by decide +kernel : Apart "Memory view set to ") _)
  | help =>
    exact .inr (.intercalate
      (by decide +kernel : Apart "s, step                  - step one instruction"))
  | refused refusal => exact .inr (apart_refusal refusal)

/-- Whoever reads the words of a toggled breakpoint finds its address behind them. -/
private theorem eq_of_message_eq {notice : Notice} {present : Bool} {shown : String}
    (h : notice.message = toggleWords present ++ shown) :
    ∃ a, notice = .breakpointToggled a present ∧ shown = a.text := by
  obtain ⟨a, present', rfl⟩ | hapart := notice.apart
  · have hwords : message (.breakpointToggled a present') = toggleWords present' ++ a.text := rfl
    rw [hwords] at h
    -- Setting and removing have words of which neither begins with the other.
    obtain rfl : present' = present := by
      by_contra hne
      have hown := List.prefix_append (toggleWords present').toList a.text.toList
      have hother := List.prefix_append (toggleWords present).toList shown.toList
      rw [← String.toList_append, ← h, String.toList_append] at hother
      have apart : ∀ p q, p ≠ q → ¬(toggleWords p).toList <+: (toggleWords q).toList := by
        decide +kernel
      obtain hshort | hlong := List.prefix_or_prefix_of_prefix hother hown
      · exact apart present present' (Ne.symm hne) hshort
      · exact apart present' present hne hlong
    -- With the same words in front, what stands behind them is the same.
    have hrest := congrArg String.toList h
    rw [String.toList_append, String.toList_append] at hrest
    exact ⟨a, rfl, String.toList_inj.1 (List.append_cancel_left hrest).symm⟩
  · exact absurd h (hapart.ne present shown)

end Notice

/-! ## One line -/

namespace Session

variable [ByteSource ρ] {s : Session ρ}

/-- The reply to a breakpoint command: whether the address is a breakpoint has changed, and the user
    is told so. -/
def TogglesBreakpoint (s : Session ρ) (a : Address) (r : Reply ρ α) : Prop :=
  ∃ breakpoints,
    r = { session :=
      { s with breakpoints, notice := .breakpointToggled a (!s.breakpoints.contains a) } } ∧
    ∀ b, b ∈ breakpoints ↔ if b = a then b ∉ s.breakpoints else b ∈ s.breakpoints

omit [ByteSource ρ] in
private theorem mem_toggleBreakpoint (rising : s.breakpoints.Pairwise (· < ·)) (a b : Address) :
    b ∈ (s.toggleBreakpoint a).breakpoints ↔
      if b = a then b ∉ s.breakpoints else b ∈ s.breakpoints := by
  split
  · next h =>
    rw [h]
    exact mem_toggleAddress_self rising a
  · next h => exact mem_toggleAddress_of_ne h s.breakpoints

/-- A breakpoint command toggles its address, in a rising list, and tells of it. -/
private theorem togglesBreakpoint_of_says (rising : s.breakpoints.Pairwise (· < ·)) {a : Address}
    (h : Command.Says line (.breakpoint a)) (viewer : Option (Viewer ρ α)) (horizon : Nat) :
    s.TogglesBreakpoint a (s.performLine viewer horizon line) := by
  have hmem := s.mem_toggleBreakpoint rising a
  refine ⟨(s.toggleBreakpoint a).breakpoints, ?_, hmem⟩
  have hself := hmem a
  rw [if_pos rfl] at hself
  have hpresent : (toggleAddress a s.breakpoints).contains a = !s.breakpoints.contains a := by
    rw [Bool.eq_iff_iff, List.contains_iff_mem, Bool.not_eq_true', ← Bool.not_eq_true,
      List.contains_iff_mem]
    exact hself
  rw [performLine_of_said h, perform, toggleBreakpoint, hpresent]

/-- A line changes whether an address is a breakpoint exactly if it names the address. -/
private theorem mem_breakpoints_performLine (rising : s.breakpoints.Pairwise (· < ·))
    (viewer : Option (Viewer ρ α)) (horizon : Nat) (line : String) (a : Address) :
    a ∈ (s.performLine viewer horizon line).session.breakpoints ↔
      if Command.Says line (.breakpoint a) then a ∉ s.breakpoints else a ∈ s.breakpoints := by
  split
  · next h =>
    rw [performLine_of_said h]
    exact mem_toggleAddress_self rising a
  · next h =>
    -- The line may name another address, a key or the view, or leave all settings alone.
    obtain hsame | ⟨key, -, ht⟩ | ⟨b, hb, ht⟩ | ⟨view, -, ht⟩ :=
      s.performLine_settings viewer horizon line
    · rw [hsame.breakpoints]
    · rw [ht]
      rfl
    · have hne : a ≠ b := fun hab => h (hab ▸ hb)
      rw [ht]
      exact mem_toggleAddress_of_ne hne s.breakpoints
    · rw [ht]
      rfl

/-- A line changes whether a key is held exactly if it names the key. -/
private theorem get_held_performLine (s : Session ρ) (viewer : Option (Viewer ρ α)) (horizon : Nat)
    (line : String) (k : Nibble) :
    (s.performLine viewer horizon line).session.held.get k = true ↔
      if Command.Says line (.key k) then ¬s.held.get k = true else s.held.get k = true := by
  split
  · next h =>
    have htoggle := get_toggle s.held k k
    rw [if_pos rfl] at htoggle
    rw [performLine_of_said h, Bool.not_eq_true, ← Bool.not_eq_true']
    exact iff_of_eq (congrArg (· = true) htoggle)
  · next h =>
    obtain hsame | ⟨key, hkey, ht⟩ | ⟨b, -, ht⟩ | ⟨view, -, ht⟩ :=
      s.performLine_settings viewer horizon line
    · rw [hsame.held]
    · have hne : k ≠ key := fun hk => h (hk ▸ hkey)
      have htoggle := get_toggle s.held key k
      rw [if_neg hne] at htoggle
      rw [ht]
      exact iff_of_eq (congrArg (· = true) htoggle)
    · rw [ht]
      rfl
    · rw [ht]
      rfl

/-! ## Many lines -/

/-- How many of the entries say the command. -/
def timesSaid (command : Command) (entries : List Entry) : Nat :=
  entries.countP fun e => Command.Says e.line command

/-- What each entry toggles that says the command, and no other entry changes, is in the end as it
    was or not, as the command was said an even or an odd number of times. -/
theorem enterAll_toggled {P : Session ρ → Prop} (hP : Preserved P) (holds : Session ρ → Prop)
    (toggled : ∀ s e, P s →
      (holds (s.enter e).session ↔ if Command.Says e.line command then ¬holds s else holds s))
    (hs : P s) (entries : List Entry) :
    holds (s.enterAll entries) ↔
      if timesSaid command entries % 2 = 1 then ¬holds s else holds s := by
  -- Induction on the entries: the first one toggles or not, and the rest is counted from there.
  induction entries generalizing s with
  | nil => rfl
  | cons e rest ih =>
    have hnext : P (s.enter e).session := (hP.performLine hs _ _ _).session
    have hfirst := toggled s e hs
    have hcount : timesSaid command (e :: rest) =
        timesSaid command rest + if Command.Says e.line command then 1 else 0 := by
      simp only [timesSaid, List.countP_cons, decide_eq_true_eq]
    rw [hcount]
    refine (ih hnext).trans ?_
    -- An entry that says the command turns the parity over, and what holds with it.
    by_cases hsaid : Command.Says e.line command
    · rw [if_pos hsaid] at hfirst ⊢
      by_cases hodd : timesSaid command rest % 2 = 1
      · rw [if_pos hodd, if_neg (by omega), hfirst, Classical.not_not]
      · rw [if_neg hodd, if_pos (by omega), hfirst]
    · rw [if_neg hsaid] at hfirst ⊢
      rw [Nat.add_zero, hfirst]

/-- What does not hold in the beginning holds after an odd number of toggles. -/
private theorem enterAll_toggled_of_not {P : Session ρ → Prop} (hP : Preserved P)
    (holds : Session ρ → Prop) (toggled : ∀ s e, P s →
      (holds (s.enter e).session ↔ if Command.Says e.line command then ¬holds s else holds s))
    (hs : P s) (hnot : ¬holds s) (entries : List Entry) :
    holds (s.enterAll entries) ↔ timesSaid command entries % 2 = 1 := by
  refine (enterAll_toggled hP holds toggled hs entries).trans ?_
  split
  · next hodd => exact iff_of_true hnot hodd
  · next heven => exact iff_of_false hnot heven

/-- Every move keeps the breakpoints in rising order. -/
private theorem preserved_rising :
    Preserved fun s : Session ρ => s.breakpoints.Pairwise (· < ·) where
  tell _ _ h := h
  remember _ h := h
  stepWithKeys _ h := h
  tick _ h := h
  countStep _ h := by
    unfold countStep
    split
    · exact h
    · exact h
  toggleKey _ _ h := h
  toggleBreakpoint _ address h := pairwise_toggleAddress h address
  setView _ _ h := h

/-- Breakpoints and keys are toggled, and addresses are read modulo 4096.

    In any session the commands for breakpoints toggle the address that they name, and nothing else
    changes but what the user is told. For every integer, in any spelling, the command `b` toggles
    the address of the integer and `g` shows memory from there on.

    In a session from the start, under any entries, an address is a breakpoint if it was named by an
    odd number of breakpoint commands, and a key is held if it was named by an odd number of key
    commands. If the user is told of a breakpoint that was set or removed, then what stands behind
    these words is a spelling of the address of this breakpoint, so that typed back behind `b` it
    toggles this address, in this session and in any other. -/
theorem toggle_parity (viewer : Option (Viewer ρ α)) (horizon : Nat) :
    (∀ s : Session ρ, s.breakpoints.Pairwise (· < ·) →
      (∀ line a, Command.Says line (.breakpoint a) →
        s.TogglesBreakpoint a (s.performLine viewer horizon line)) ∧
      ∀ (n : Int) (text : String), Text.WritesHex n text.toList →
        ∃ a : Address, (a.val : Int) = n % 4096 ∧
          s.TogglesBreakpoint a (s.performLine viewer horizon ("b " ++ text)) ∧
          s.performLine viewer horizon ("g " ++ text) =
            { session := { s with view := some a, notice := .viewSet a } }) ∧
    ∀ (m : Machine ρ) (entries : List Entry),
      let s := (Conversation.opening m).enterAll entries
      s.breakpoints.Pairwise (· < ·) ∧
      (∀ a, a ∈ s.breakpoints ↔ timesSaid (.breakpoint a) entries % 2 = 1) ∧
      (∀ k, s.held.get k = true ↔ timesSaid (.key k) entries % 2 = 1) ∧
      ∀ present shown, s.notice.message = Notice.toggleWords present ++ shown →
        ∃ a, s.notice = .breakpointToggled a present ∧ Text.WritesHex a.val shown.toList ∧
          ∀ t : Session ρ, t.breakpoints.Pairwise (· < ·) →
            t.TogglesBreakpoint a (t.performLine viewer horizon ("b " ++ shown)) := by
  refine ⟨fun s rising => ⟨fun line a hsaid => ?_, fun n text htext => ?_⟩, fun m entries => ?_⟩
  · exact togglesBreakpoint_of_says rising hsaid viewer horizon
  · have hvalue : ((Address.ofInt n).val : Int) = n % 4096 := by
      rw [Address.val_ofInt]
      omega
    exact ⟨Address.ofInt n, hvalue,
      togglesBreakpoint_of_says rising (Command.says_breakpoint htext) viewer horizon,
      performLine_of_said (Command.says_view htext) s viewer horizon⟩
  · intro s
    -- No breakpoints are in rising order, and no address is among them.
    have hstart : (Conversation.opening m).breakpoints.Pairwise (· < ·) := .nil
    refine ⟨enterAll_induction preserved_rising hstart entries, fun a => ?_, fun k => ?_,
      fun present shown hmessage => ?_⟩
    · exact enterAll_toggled_of_not preserved_rising (fun s => a ∈ s.breakpoints)
        (fun s e hs => s.mem_breakpoints_performLine hs _ _ e.line a) hstart List.not_mem_nil
        entries
    · have hup : ¬(Conversation.opening m).held.get k = true := by
        rw [Bool.not_eq_true]
        exact Vector.getElem_replicate _
      exact enterAll_toggled_of_not preserved_rising (fun s => s.held.get k = true)
        (fun s e _ => s.get_held_performLine _ _ e.line k) hstart hup entries
    -- The words decide which notice it is, and its address is spelled as it is shown.
    · obtain ⟨a, hnotice, rfl⟩ := Notice.eq_of_message_eq hmessage
      have htext := Text.writesHex_text a
      refine ⟨a, hnotice, htext, fun t rising => ?_⟩
      have hsaid := Command.says_breakpoint htext
      rw [Address.ofInt_val] at hsaid
      exact togglesBreakpoint_of_says rising hsaid viewer horizon

/-- Three spellings of one address, the last of them above the number of addresses, and a line that
    is refused in between. -/
example :
    let s := (Conversation.opening (Machine.fresh (Replay.ofInts []))).enterAll
      [{ line := "b -1" }, { line := "B 0xfFf" }, { line := "b 0x" }, { line := "b 001fFF" }]
    s.breakpoints = [0xFFF] ∧ s.notice.message = "Breakpoint set at 0xFFF" := by
  decide +kernel

end Session

end Debugger

end Chip8
