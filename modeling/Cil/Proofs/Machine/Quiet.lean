import Cil.Isolation.Dispatch
import Cil.Machine.CoreLibrary
import Cil.Machine.Host
import Cil.Proofs.Machine.Locality

/-!
# Native methods that call nothing

Programs of the host that ask for no call and for no function pointer leave alone what says
which code runs, and so does what the methods of the core library and the stubs do apart from
calls.
-/

namespace Cil

open MonadExcept (ofExcept)

/-- A request that neither calls a method nor makes a function pointer. -/
def Request.isQuiet : Request → Bool
  | .call .. | .callVirtual .. | .construct .. | .functionPointer _ => false
  | _ => true

/-- Whatever it is answered, a program of the host calls no method. -/
def Program.Quiet : Program → Prop
  | .done _ | .fail _ => True
  | .perform request next => request.isQuiet ∧ ∀ answer, (next answer).Quiet
  | .readString _ next => ∀ answer, (next answer).Quiet

namespace Exec

/-! ## Programs of the host -/

variable {run : Runner}

theorem steady_answer {request : Request} (quiet : request.isQuiet) :
    Steady (answer run request) := by
  cases request with
  | resolve token =>
      exact .bind (.discard (.bind .module fun _ => .ofExcept _)) fun _ => .pure _
  | call | callVirtual | construct | functionPointer => cases quiet
  | load pointer => exact steady_load _
  | store pointer value => exact .bind (steady_store _ _) fun _ => .pure _
  | newString text => exact steady_newString _
  | newObject type => exact steady_newObject _
  | newArray elementType elements => exact steady_allocate _
  | newBox type payload => exact steady_box _ _
  | zero signature => exact .bind .module fun _ => .ofExcept _
  | throwNew type message? => exact steady_raise _ _
  | writeLine text => exact .bind (.modify fun _ => ⟨⟨rfl, rfl, rfl, rfl⟩, rfl, rfl⟩) fun _ => .pure _
  | depth => exact .bind .get fun _ => .pure _
  | executed => exact .bind .get fun _ => .pure _

theorem steady_runProgram {program : Program} (quiet : program.Quiet) :
    Steady (runProgram run program) := by
  induction program with
  | done value => exact .pure _
  | fail error => exact .throw _
  | perform request next ih =>
      exact .bind (steady_answer quiet.1) fun answer => ih answer (quiet.2 answer)
  | readString reference next ih =>
      exact .bind (.attempt (steady_stringText? _)) fun text => ih text (quiet text)

theorem runProgram_congr (run other : Runner) {program : Program} (quiet : program.Quiet) :
    runProgram run program = runProgram other program := by
  induction program with
  | done value => rfl
  | fail error => rfl
  | perform request next ih =>
      have same : answer run request = answer other request := by
        have asks := quiet.1
        cases request with
        | call | callVirtual | construct | functionPointer => cases asks
        | _ => rfl
      unfold runProgram
      rw [same]
      congr 1
      funext value
      exact ih value (quiet.2 value)
  | readString reference next ih =>
      unfold runProgram
      congr 1
      funext text
      exact ih text (quiet text)

/-! ## Arguments of native methods -/

theorem steady_argument (arguments : List Value) (index : Nat) :
    Steady (argument arguments index) := by
  unfold argument
  split
  · exact .pure _
  · exact .throw _

theorem steady_stringArgument? (arguments : List Value) (index : Nat) :
    Steady (stringArgument? arguments index) :=
  .bind (steady_argument _ _) fun _ => steady_stringText? _

theorem steady_stringReceiver (arguments : List Value) :
    Steady (stringReceiver arguments) := by
  refine .bind (steady_stringArgument? _ _) fun text? => ?_
  cases text? with
  | some text => exact .pure _
  | none => exact steady_nullReference

theorem steady_displayWithin (steps : Nat) (value : Value) :
    Steady (displayWithin steps value) := by
  induction steps generalizing value with
  | zero => exact .throw _
  | succ steps ih =>
      cases value with
      | object reference =>
          refine .bind (.readHeap _) fun object => ?_
          cases object with
          | boxed type payload =>
              dsimp only
              split
              · exact .pure _
              split
              · exact .bind (.ofExcept _) fun _ => .pure _
              · exact ih payload
          | object type fields => exact .bind .module fun _ => .pure _
          | delegate type target pointer => exact .bind .module fun _ => .pure _
          | _ => exact .pure _
      | record type fields => exact .bind .module fun _ => .pure _
      | _ => exact .pure _

theorem steady_display (value : Value) : Steady (display value) :=
  .bind .get fun _ => steady_displayWithin _ _

theorem steady_shown (receiver : Value) : Steady (do
    match ← display receiver with
    | some text => newString text
    | none => nullReference) := by
  refine .bind (steady_display _) fun text? => ?_
  cases text? with
  | some text => exact steady_newString _
  | none => exact steady_nullReference

/-- Of all methods of the core library only the invocation of a delegate runs other code. -/
theorem steady_runCore {operation : CoreNative} (other : operation ≠ .invokeDelegate)
    (arguments : List Value) : Steady (runCore run operation arguments) := by
  have argument := steady_argument arguments
  have text? := steady_stringArgument? arguments
  have written (line : String) :
      Steady (do
        modify fun machine : Machine => machine.writeLine line
        return Value.void) :=
    .bind (.modify fun _ => ⟨⟨rfl, rfl, rfl, rfl⟩, rfl, rfl⟩) fun _ => .pure _
  cases operation with
  | nothing => exact .pure _
  | toString =>
      refine .bind (argument 0) fun value => ?_
      split
      · exact .bind (steady_load _) steady_shown
      · exact .bind (.pure _) steady_shown
  | concat => exact .bind (text? 0) fun _ => .bind (text? 1) fun _ => steady_newString _
  | toUpper => exact .bind (steady_stringReceiver _) fun _ => steady_newString _
  | length =>
      refine .bind (steady_stringReceiver _) fun text => ?_
      dsimp only
      split
      · exact .pure _
      · exact .throw _
  | equality => exact .bind (text? 0) fun _ => .bind (text? 1) fun _ => .pure _
  | writeLineString => exact .bind (text? 0) fun _ => written _
  | writeLineInt => exact .bind (argument 0) fun _ => .bind (.ofExcept _) fun _ => written _
  | message =>
      exact .bind (argument 0) fun _ => .bind (steady_objectOf _) fun _ =>
        .bind (steady_describeException _) fun _ => steady_newString _
  | setMessage =>
      exact .bind (argument 0) fun _ => .bind (steady_objectOf _) fun _ =>
        .bind (argument 1) fun _ => .bind (.onHeap _) fun _ => .pure _
  | createDelegate =>
      refine .bind (argument 0) fun _ => .bind (steady_objectOf _) fun _ =>
        .bind (argument 1) fun _ => .bind (argument 2) fun pointer => ?_
      split
      · exact .bind (.onHeap _) fun _ => .pure _
      · exact .throw _
  | invokeDelegate => exact absurd rfl other

theorem runCore_congr (run other : Runner) {operation : CoreNative}
    (differs : operation ≠ .invokeDelegate) (arguments : List Value) :
    runCore run operation arguments = runCore other operation arguments := by
  cases operation with
  | invokeDelegate => exact absurd rfl differs
  | _ => rfl

/-! ## Receivers -/

theorem steady_receiverType? (receiver : Value) : Steady (receiverType? receiver) := by
  unfold receiverType?
  cases receiver with
  | pointer location => exact .bind (steady_load _) fun _ => steady_runtimeType? _
  | _ => exact steady_runtimeType? _

theorem steady_describe (value : Value) : Steady (do
    match value with
    | .null => return (none : Option Receiver)
    | .object reference =>
      return some { object? := some reference, runtimeType? := ← runtimeType? value }
    | other => return some { object? := none, runtimeType? := ← runtimeType? other }) := by
  cases value with
  | null => exact .pure _
  | _ => exact .bind (steady_runtimeType? _) fun _ => .pure _

theorem steady_receiverOf? (value : Value) : Steady (receiverOf? value) := by
  unfold receiverOf?
  cases value with
  | pointer location => exact .bind (steady_load _) steady_describe
  | _ => exact .bind (.pure _) steady_describe

theorem steady_adjustReceiver (type : Token) (wantsBox : Bool) (receiver : Value) :
    Steady (adjustReceiver type wantsBox receiver) := by
  unfold adjustReceiver
  split
  · exact .pure _
  · exact .bind (steady_load _) fun _ => steady_box _ _
  · exact .pure _

/-! ## Stubs -/

theorem steady_runOf (site : Stub) : Steady (runOf site) := by
  refine .bind .get fun machine => ?_
  split
  · exact .pure _
  · exact .throw _

theorem steady_shimFor? (site : Stub) (method : MethodDef) (receiver? : Option Receiver) :
    Steady (shimFor? site method receiver?) :=
  .bind (steady_runOf site) fun _ => .bind .module fun _ => .pure _

theorem steady_resolve (method : MethodDef) (receiver : Receiver) :
    Steady (resolve method receiver) := by
  unfold resolve
  split
  · exact .bind .module fun _ => .ofExcept _
  · exact .pure _

end Exec

end Cil
