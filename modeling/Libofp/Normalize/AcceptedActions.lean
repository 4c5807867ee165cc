/- GID: Libofp/Normalize/AcceptedActions
   digest: What the action loop makes of an accepted list. -/

import Mathlib.Data.List.Forall2
import Libofp.Normalize.ActionProgress
import Libofp.Wire.PaddedElements

set_option autoImplicit false

namespace Libofp.Normalize.AcceptedActions

open Octets.ByteRange Octets.ByteList Octets.BigEndian
open Base.Iteration Oxm.Field Messages Actions.ActionRange Wire Wire.ProtocolRange
open Wire.PaddedElements (IsElement)
open ActionRewrite ActionTurns ActionSpans ActionProgress

/-- The action `SET_FIELD` with the value that an older action carries. -/
def setFieldFrom (host : Host) (f : OxmField) (action : Bytes) : Bytes :=
  bigBytes 2 OFPAT.setField ++ bigBytes 2 16 ++
    pad8 (oxmEntry f (throughNative host f (window action 4 f.size))) 4

def normalised (host : Host) (version ipProto : Nat) (action : Bytes) : Bytes :=
  if enumType action = OFPAT.output then
    if actionLength action = 8 then
      atOutput (normPortNumberV1 (big16 action 4)) (big16 action 6)
    else action
  else
    match fieldOf version ipProto action with
    | some f => if Rewrites f (actionLength action) then setFieldFrom host f action else action
    | none => action

private theorem isElement_setFieldFrom (host : Host) {f : OxmField} {action : Bytes}
    (holds : 4 + f.size ≤ action.length) : IsElement 4 2 (setFieldFrom host f action) := by
  have length : (setFieldFrom host f action).length = 16 := by
    have whole : (throughNative host f (window action 4 f.size)).length = f.size := by
      rw [length_throughNative, length_window action holds]
    rw [setFieldFrom, List.length_append, length_setFieldList f whole]
    rfl
  have stated : big16 (setFieldFrom host f action) 2 = 16 := actionLength_header _ _ _
  constructor
  · omega
  · rw [stated, length]
    rfl

private theorem isElement_atOutput (port maxlen : Nat) : IsElement 4 2 (atOutput port maxlen) := by
  have length : (atOutput port maxlen).length = 16 := by simp [atOutput]
  have stated : big16 (atOutput port maxlen) 2 = 16 := by
    simp only [atOutput, List.append_assoc]
    exact actionLength_header _ _ _
  constructor
  · omega
  · rw [stated, length]
    rfl

private theorem validateAction_setFieldFrom (host : Host) {f : OxmField} {action : Bytes}
    (holds : 4 + f.size ≤ action.length) :
    validateAction (setFieldFrom host f action) = true := by
  have small := f.size_le
  have whole : (throughNative host f (window action 4 f.size)).length = f.size := by
    rw [length_throughNative, length_window action holds]
  have type : enumType (setFieldFrom host f action) = OFPAT.setField := by
    rw [setFieldFrom, enumType_header]
    rfl
  have stated : actionLength (setFieldFrom host f action) = 16 := actionLength_header _ _ _
  have twelve := length_setFieldList f whole
  have value : actionValue (setFieldFrom host f action) =
      pad8 (oxmEntry f (throughNative host f (window action 4 f.size))) 4 := by
    rw [actionValue, stated, setFieldFrom, List.drop_left' (by simp)]
    exact List.take_of_length_le (by omega)
  generalize throughNative host f (window action 4 f.size) = bytes at whole twelve value
  have entry : (oxmEntry f bytes).length = 4 + f.size := by
    rw [oxmEntry, List.length_append, length_bigBytes, whole]
  have size : big8 (pad8 (oxmEntry f bytes) 4) 3 = f.size := by
    cases f <;> rfl
  have rest : (pad8 (oxmEntry f bytes) 4).drop (4 + f.size) =
      List.replicate (padLength (4 + (4 + f.size)) - (4 + (4 + f.size))) 0 := by
    rw [pad8, entry, List.drop_left' entry]
  rw [validateAction, if_pos type, validateInputSetField, stated, if_neg (by omega), value,
    validateInputPaddedField, size, twelve, if_neg (by omega)]
  simp only [rest, if_neg (show ¬ 12 < 4 + f.size by omega), List.length_replicate, padLength,
    Bool.and_eq_true, decide_eq_true_eq]
  refine ⟨by omega, List.all_eq_true.mpr fun byte member => ?_⟩
  rw [List.eq_of_mem_replicate member]
  rfl

private theorem validateAction_atOutput (port maxlen : Nat) :
    validateAction (atOutput port maxlen) = true := by
  have type : enumType (atOutput port maxlen) = OFPAT.output := by
    simp only [atOutput, List.append_assoc]
    rw [← List.append_assoc, enumType_header]
    rfl
  rw [validateAction, type, if_neg (by decide), if_neg (by decide)]

section

variable {host : Host} {version ipProto : Nat} {action : Bytes}

theorem holds_of_rewrites {f : OxmField} (element : IsElement 4 2 action)
    (rewrites : Rewrites f (actionLength action)) : 4 + f.size ≤ action.length := by
  have least : 4 ≤ actionLength action := element.least
  have whole : action.length = padLength (actionLength action) := element.whole
  have long := le_padLength (actionLength action)
  obtain ⟨-, zero | holds⟩ := rewrites
  · omega
  · omega

theorem isElement_normalised (element : IsElement 4 2 action) :
    IsElement 4 2 (normalised host version ipProto action) := by
  unfold normalised
  split
  · split
    · exact isElement_atOutput _ _
    · exact element
  · split
    · split
      · rename_i rewrites
        exact isElement_setFieldFrom host (holds_of_rewrites element rewrites)
      · exact element
    · exact element

private theorem validateAction_normalised (element : IsElement 4 2 action)
    (valid : validateAction action = true) :
    validateAction (normalised host version ipProto action) = true := by
  unfold normalised
  split
  · split
    · exact validateAction_atOutput _ _
    · exact valid
  · split
    · split
      · rename_i rewrites
        exact validateAction_setFieldFrom host (holds_of_rewrites element rewrites)
      · exact valid
    · exact valid

end

section

variable {host : Host} {slack : Slack} {ipProto : Nat} {c : Cursor}
  {pre action rest post : Bytes}

theorem header_element (slack : Slack) (spans : Spans c pre (action ++ rest) post)
    (element : IsElement 4 2 action) : enumType (c.header slack) = enumType action ∧
      actionLength (c.header slack) = actionLength action := by
  have least : 4 ≤ actionLength action := element.least
  have whole : action.length = padLength (actionLength action) := element.whole
  have long := le_padLength (actionLength action)
  rw [spans.header_eq slack (by rw [List.length_append]; omega),
    List.take_append_of_le_length (by omega)]
  exact ⟨big16_take (by omega), big16_take (by omega)⟩

/-- The new action is the replacement at the cursor, and the old one if there is none. -/
private theorem rewriteAt_element (spans : Spans c pre (action ++ rest) post)
    (element : IsElement 4 2 action) : (rewriteAt host slack ipProto c).elim action Rewrite.out =
      normalised host (Header.version c.buf) ipProto action := by
  have whole : action.length = padLength (actionLength action) := element.whole
  have long := le_padLength (actionLength action)
  have value : ∀ n, 4 + n ≤ action.length →
      fetch slack c.buf (c.iter + 4) n = window action 4 n := by
    intro n inside
    rw [spans.fetch_eq slack (by rw [List.length_append]; omega), window,
      List.drop_append_of_le_length (by omega),
      List.take_append_of_le_length (by rw [List.length_drop]; omega)]
  obtain ⟨type, stated⟩ := header_element slack spans element
  have field : fieldAt slack ipProto c = fieldOf (Header.version c.buf) ipProto action := by
    rw [fieldAt, fieldOf, fieldOf, type]
  rw [rewriteAt, normalised, type, stated, field]
  split
  · split
    · next eight =>
      simp [outputRewrite, value 4 (by omega), window, big16_take, big16_drop]
    · rfl
  · cases fieldOf (Header.version c.buf) ipProto action with
    | none => rfl
    | some f =>
      by_cases rewrites : Rewrites f (actionLength action)
      · simp [rewrites, setFieldRewrite, setFieldFrom, value _ (holds_of_rewrites element rewrites)]
      · simp [rewrites]

private theorem turn_element (host : Host) (slack : Slack) (ipProto : Nat)
    (spans : Spans c pre (action ++ rest) post) (element : IsElement 4 2 action) :
    ∃ c', normTurn host slack ipProto c = .done c' ∧
      Spans c' (pre ++ normalised host (Header.version c.buf) ipProto action) rest post ∧
      c'.lengthChange = c.lengthChange +
        ((normalised host (Header.version c.buf) ipProto action).length - action.length) := by
  have least : 4 ≤ actionLength action := element.least
  have whole : action.length = padLength (actionLength action) := element.whole
  have long := le_padLength (actionLength action)
  have total := spans.length
  rw [List.length_append] at total
  obtain ⟨-, stated⟩ := header_element slack spans element
  rw [← @rewriteAt_element host slack ipProto c pre action rest post spans element]
  cases found : rewriteAt host slack ipProto c with
  | none =>
    -- An action that stays is passed over with its padding.
    refine ⟨_, normTurn_pass host slack ipProto c found, ?_, by simp [passed]⟩
    have reach : padLength (max 4 (actionLength (c.header slack))) = action.length := by
      rw [stated, Nat.max_eq_right least, whole]
    have next := spans.passed slack reach (by rw [List.length_append]; omega)
    rwa [List.take_left, List.drop_left] at next
  | some r =>
    -- A replacement takes exactly the place of the old action.
    obtain ⟨size, units⟩ := size_of_rewriteAt found
    have exact_ : r.size = action.length := by
      rw [size, stated] at units
      rw [size, stated, whole, padLength_of_mod units]
    refine ⟨ActionTurns.replaced slack c r, ?_, ?_, ?_⟩
    · rw [normTurn_replace host slack ipProto c found, if_pos (by omega)]
    · have next := spans.replaced slack (r := r) (by omega) (by rw [List.length_append]; omega)
      rwa [exact_, List.drop_left] at next
    · simp [ActionTurns.replaced, exact_, r.full]

private theorem version_turn {out : Bytes} {c' : Cursor} (spans : Spans c pre (action ++ rest) post)
    (spans' : Spans c' (pre ++ out) rest post) (front : pre ≠ []) :
    Header.version c'.buf = Header.version c.buf := by
  obtain ⟨byte, more, rfl⟩ := List.exists_cons_of_ne_nil front
  rw [spans.buf, spans'.buf]
  rfl

end

/-- Old and new actions correspond one to one. A list that does not begin with the version
byte of the message is normalised with that version. -/
def Renewed (host : Host) (ipProto version : Nat) (pre : Bytes) (actions actions' : List Bytes) :
    Prop :=
  List.Forall₂ (fun action action' => ∃ v, (pre ≠ [] → v = version) ∧
    action' = normalised host v ipProto action) actions actions'

theorem settles_actions (host : Host) (slack : Slack) (ipProto : Nat) {post : Bytes}
    (actions : List Bytes) (elements : ∀ action ∈ actions, IsElement 4 2 action) :
    ∀ {c : Cursor} {pre : Bytes}, Spans c pre actions.flatten post →
      ∃ c' actions', Settles (fun fuel => normActionsV1orV2 host slack fuel ipProto c) (.done c') ∧
        c'.buf = pre ++ actions'.flatten ++ post ∧
        c'.lengthChange = c.lengthChange + (actions'.flatten.length - actions.flatten.length) ∧
        Renewed host ipProto (Header.version c.buf) pre actions actions' := by
  induction actions with
  | nil =>
    intro c pre spans
    have done : c.more = false := by
      have position := spans.iter
      have last := spans.iterEnd
      simp only [List.flatten_nil, List.length_nil] at last
      simp only [Cursor.more, decide_eq_false_iff_not]
      omega
    refine ⟨c, [], ⟨by simp, 0, fun fuel _ => ?_⟩, spans.buf, by simp, .nil⟩
    exact whileLoop_of_guard_false _ fuel done
  | cons action actions ih =>
    intro c pre spans
    rw [List.forall_mem_cons] at elements
    have element := elements.1
    have least : 4 ≤ actionLength action := element.least
    have whole : action.length = padLength (actionLength action) := element.whole
    have long := le_padLength (actionLength action)
    rw [List.flatten_cons] at spans
    obtain ⟨c₁, turn, spans₁, change₁⟩ := turn_element host slack ipProto spans element
    obtain ⟨c', actions', settled, buf, change, renewed⟩ := ih elements.2 spans₁
    have more : c.more = true := by
      have position := spans.iter
      have last := spans.iterEnd
      rw [List.length_append] at last
      simp only [Cursor.more, decide_eq_true_eq]
      omega
    have nonempty : normalised host (Header.version c.buf) ipProto action ≠ [] :=
      ((isElement_normalised element).spans (by omega)).ne_nil
    refine ⟨c', normalised host (Header.version c.buf) ipProto action :: actions',
      settles_whileLoop_step more turn settled, ?_, ?_, .cons ⟨_, fun _ => rfl, rfl⟩ ?_⟩
    · rw [buf, List.flatten_cons, List.append_assoc pre]
    · simp only [List.flatten_cons, List.length_append]
      omega
    · refine renewed.imp ?_
      rintro old new ⟨v, version, rfl⟩
      refine ⟨v, fun front => ?_, rfl⟩
      rw [version (by simp [nonempty]), version_turn spans spans₁ front]

theorem elements_of_validateInput {address : Nat} {range : Bytes}
    (accepted : validateInput address range = true) :
    (∀ action ∈ actionLayout.items range, IsElement 4 2 action ∧ validateAction action = true) ∧
      (actionLayout.items range).flatten = range := by
  have parts := PaddedElements.elements_of_accepts (show 2 + 2 ≤ 4 by omega)
    (accepts_of_validateInput accepted)
  have valid := List.all_eq_true.mp (Bool.and_eq_true_iff.mp accepted).2
  exact ⟨fun action member => ⟨parts.1 action member, valid action member⟩, parts.2⟩

theorem validateInput_flatten {address : Nat} (aligned : address % 8 = 0) {actions : List Bytes}
    (all : ∀ action ∈ actions, IsElement 4 2 action ∧ validateAction action = true) :
    validateInput address actions.flatten = true ∧
      actionLayout.items actions.flatten = actions := by
  have items : actionLayout.items actions.flatten = actions :=
    PaddedElements.items_flatten fun action member => ((all action member).1).spans (by omega)
  have accepts : actionLayout.Accepts actions.flatten :=
    PaddedElements.accepts_flatten (by omega) (by omega) fun action member => (all action member).1
  have units : actions.flatten.length % 8 = 0 := by
    clear items accepts
    induction actions with
    | nil => rfl
    | cons action actions ih =>
      rw [List.forall_mem_cons] at all
      have whole := all.1.1.whole
      have rest := ih all.2
      simp only [List.flatten_cons, List.length_append, whole, padLength]
      omega
  refine ⟨?_, items⟩
  rw [validateInput, items]
  simp only [ElementLayout.isProtocolRangeValid, actionLayout, Bool.and_eq_true, beq_iff_eq]
  exact ⟨⟨⟨units, aligned⟩, accepts⟩, List.all_eq_true.mpr fun action member =>
    (all action member).2⟩

private theorem aligned_of_validateInput {address : Nat} {range : Bytes}
    (accepted : validateInput address range = true) : address % 8 = 0 := by
  simp only [validateInput, ElementLayout.isProtocolRangeValid, actionLayout, Bool.and_eq_true,
    beq_iff_eq] at accepted
  exact accepted.1.1.2

private theorem valid_of_renewed {host : Host} {ipProto version : Nat} {pre : Bytes}
    {actions actions' : List Bytes} (renewed : Renewed host ipProto version pre actions actions')
    (all : ∀ action ∈ actions, IsElement 4 2 action ∧ validateAction action = true) :
    ∀ action ∈ actions', IsElement 4 2 action ∧ validateAction action = true := by
  induction renewed with
  | nil => exact all
  | cons first _ ih =>
    obtain ⟨v, -, rfl⟩ := first
    rw [List.forall_mem_cons] at all ⊢
    exact ⟨⟨isElement_normalised all.1.1, validateAction_normalised all.1.1 all.1.2⟩, ih all.2⟩

def normalisedRange (host : Host) (version ipProto : Nat) (range : Bytes) : Bytes :=
  ((actionLayout.items range).map (normalised host version ipProto)).flatten

theorem Renewed.eq_map {host : Host} {ipProto version : Nat} {pre : Bytes}
    {actions actions' : List Bytes} (renewed : Renewed host ipProto version pre actions actions')
    (front : pre ≠ []) : actions' = actions.map (normalised host version ipProto) := by
  induction renewed with
  | nil => rfl
  | cons first _ ih =>
    obtain ⟨v, version, rfl⟩ := first
    rw [List.map_cons, version front, ih]

theorem settles_accepted (host : Host) (slack : Slack) (ipProto : Nat) {address : Nat}
    {c : Cursor} {pre range post : Bytes} (spans : Spans c pre range post) (front : pre ≠ [])
    (accepted : validateInput address range = true) :
    ∃ c', Settles (fun fuel => normActionsV1orV2 host slack fuel ipProto c) (.done c') ∧
      c'.buf = pre ++ normalisedRange host (Header.version c.buf) ipProto range ++ post ∧
      range.length + c'.lengthChange = c.lengthChange +
        (normalisedRange host (Header.version c.buf) ipProto range).length := by
  obtain ⟨all, whole⟩ := elements_of_validateInput accepted
  rw [← whole] at spans
  obtain ⟨c', actions, settled, result, change, renewed⟩ :=
    settles_actions host slack ipProto _ (fun action member => (all action member).1) spans
  obtain rfl := renewed.eq_map front
  refine ⟨c', settled, result, ?_⟩
  rw [change, whole, normalisedRange]
  omega

/-- Normalising an accepted range of actions inside a buffer: the loop ends, what is before
the range and behind it stays, the returned number is the change of the buffer's size, and
the new range has as many actions and is accepted, also where the buffer has moved to. -/
theorem actions_accounted (host : Host) (slack : Slack) (ipProto address : Nat) (buf : Bytes)
    (pos len : Nat) (inside : pos + len ≤ buf.length)
    (accepted : validateInput address (window buf pos len) = true) :
    ∃ c range, Settles (fun fuel => normActionsV1orV2 host slack fuel ipProto
          ⟨buf, pos, pos + len, 0, []⟩) (.done c) ∧
      c.buf = buf.take pos ++ range ++ buf.drop (pos + len) ∧
      c.lengthChange = c.buf.length - buf.length ∧
      (∀ address', address' % 8 = address % 8 → validateInput address' range = true) ∧
      (actionLayout.items range).length = (actionLayout.items (window buf pos len)).length := by
  obtain ⟨all, whole⟩ := elements_of_validateInput accepted
  have spans := spans_window inside
  rw [← whole] at spans
  obtain ⟨c, actions, settled, result, change, renewed⟩ :=
    settles_actions host slack ipProto _ (fun action member => (all action member).1) spans
  have valid := valid_of_renewed renewed all
  have aligned := aligned_of_validateInput accepted
  refine ⟨c, actions.flatten, settled, result, ?_, fun address' same => ?_, ?_⟩
  · have size := length_window buf inside
    have total := congrArg List.length result
    simp only [List.length_append, List.length_take, List.length_drop] at total
    rw [change, whole, size]
    simp only [Int.zero_add]
    omega
  · exact (validateInput_flatten (same.trans aligned) valid).1
  · rw [(validateInput_flatten aligned valid).2]
    exact renewed.length_eq.symm

/-- A `PacketOut` with an `OUTPUT` to the controller and three bytes of payload. -/
def outputMessage : Bytes :=
  [1, 13, 0, 27, 0, 0, 0, 1, 255, 255, 255, 255, 0, 1, 0, 8] ++ [0, 0, 0, 8, 255, 253, 0, 64] ++
    [7, 8, 9]

theorem actions_accounted_output :
    ∃ c range, Settles (fun fuel => normActionsV1orV2 .little (fun _ _ => 0) fuel 0
          ⟨outputMessage, 16, 24, 0, []⟩) (.done c) ∧
      c.buf = outputMessage.take 16 ++ range ++ outputMessage.drop 24 ∧
      c.lengthChange = c.buf.length - outputMessage.length ∧
      (∀ address', address' % 8 = 16 % 8 → validateInput address' range = true) ∧
      (actionLayout.items range).length = (actionLayout.items (window outputMessage 16 8)).length :=
  actions_accounted .little (fun _ _ => 0) 0 16 outputMessage 16 8 (by decide) (by decide)

end Libofp.Normalize.AcceptedActions
