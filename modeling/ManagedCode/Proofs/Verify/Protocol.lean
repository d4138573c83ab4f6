import ManagedCode.Proofs.Engine.Protocol
import ManagedCode.Proofs.Verify.Sessions

set_option autoImplicit false

/-! # The protocol of a session

Between the beginning of a session and its end the backend hears of the instructions of the method,
in their order and once each. A session that is rejected before its pass tells nothing. One that is
rejected at an instruction tells all about the instructions before it, and never the operation of
that one. However often a session is run again, the backend has recorded it once in the end.
-/

namespace ManagedCode

/-- A backend keeps what it recorded when it says that it is content or asks for a restart. -/
theorem Recorder.finish_directives (r : Recorder) : r.finish.2.directives = r.directives := by
  unfold finish
  split <;> rfl

/-- What is recorded in the end is one session. -/
theorem attempt_directives (session : Session) (maxRestarts restarts : Nat) (backend : Recorder) :
    (attempt session maxRestarts restarts backend).2.directives = session.directives := by
  have hrecorded (backend : Recorder) :
      (backend.setup.recordAll session.directives).directives = session.directives :=
    Array.empty_append
  have hfinished (backend : Recorder) :
      (backend.setup.recordAll session.directives).finish.2.directives = session.directives :=
    (Recorder.finish_directives _).trans (hrecorded backend)
  fun_induction attempt session maxRestarts restarts backend with
  | case1 restarts backend recorded e hresult => exact hrecorded backend
  | case2 restarts backend recorded a hresult kept hfinish =>
      have hkept := hfinished backend
      rw [hfinish] at hkept
      exact hkept
  | case3 restarts backend recorded a hresult kept hfinish hmore ih => exact ih
  | case4 restarts backend recorded a hresult kept hfinish hmore =>
      have hkept := hfinished backend
      rw [hfinish] at hkept
      exact hkept

/-- The pass of a prepared session follows the protocol. -/
theorem Session.run_follows {body : MethodBody} {world : Universe} {options : Options}
    {joins : Joins} (h : prepare body world options = .ok joins) :
    let cx := context body world options joins
    Engine.Follows cx (Engine.start cx joins.labels) {} (disassemble body.code).instructions
      (visits body world options) (run body world options).directives.toList
      (run body world options).result := by
  intro cx
  have hstart : (Engine.start cx joins.labels).Awaits {} := ⟨rfl, rfl⟩
  obtain ⟨told, htold, hfollows⟩ :=
    Engine.visitAll_follows hstart #[] (disassemble body.code).instructions
  rw [visits_of_prepare h, run_of_prepare h]
  rw [show told = _ from htold.symm] at hfollows
  refine hfollows.imp fun e he => ?_
  have hpass := Engine.run_of_visitAll_error he
  exact congrArg (Except.bind · conclude) hpass

/-- **The backend hears of every instruction in turn, and of one operation for each.** A method
beyond the limits leaves the backend as it is. Otherwise the backend has recorded a session in the
end: nothing, if the code or the exception regions are rejected, and else what the protocol says
about the instructions of the method, up to the one that is rejected, if there is one. -/
theorem verify_protocol (body : MethodBody) (world : Universe) (options : Options)
    (backend : Recorder) :
    let session := Session.run body world options
    (∀ e, body.checkLimits = .error e → (verify body world options backend).2 = backend) ∧
      (body.checkLimits = .ok () →
        (verify body world options backend).2.directives = session.directives) ∧
      (∀ e, Session.prepare body world options = .error e →
        session.directives = #[] ∧ session.result = .error e) ∧
      ∀ joins, Session.prepare body world options = .ok joins →
        let cx := Session.context body world options joins
        Engine.Follows cx (Engine.start cx joins.labels) {} (disassemble body.code).instructions
          (Session.visits body world options) session.directives.toList session.result := by
  intro session
  refine ⟨fun e he => ?_, fun hlimits => ?_, fun e he => ?_, fun joins hjoins => ?_⟩
  · simp only [verify, he]
  · simp only [verify, hlimits]
    exact attempt_directives session _ _ backend
  · have hrun : session = .rejected e := Session.run_of_prepare_error he
    rw [hrun]
    exact ⟨rfl, rfl⟩
  · exact Session.run_follows hjoins

/-- Reads through a reference, with a remark behind the modifier, and jumps to the return:
`ldarg.0; volatile.; ann.data.s; ldind.i4; pop; br.s 10; ret`. -/
def volatileRead : MethodBody where
  code := [0x02, 0xFE, 0x13, 0xFE, 0x22, 0x00, 0x4A, 0x26, 0x2B, 0x00, 0x2A]
  maxStack := 1
  signature := { params := [.byRef (.primitive .int32)] }

/-- The modifier waits for the read behind the remark, and is told before it. -/
theorem verify_volatileRead_protocol :
    volatileRead.checkLimits = .ok () ∧
      ∃ joins, Session.prepare volatileRead .core {} = .ok joins ∧
        let visits := Session.visits volatileRead .core {}
        (verify volatileRead .core {} (.withRestarts 1)).2.directives.toList =
            visits.flatMap (·.directives) ∧
          ∃ v ∈ visits, v.instruction = ⟨6, .ldindI4, 1, .none⟩ ∧
            v.directives =
              [.modifiers { volatile := true } none, .loadIndirect (.primitive .int32)] := by
  have hlimits : volatileRead.checkLimits = .ok () := by decide +kernel
  have haccepted : (Session.run volatileRead .core {}).result = .ok ⟨1, 1⟩ := by decide +kernel
  have hmark : (Session.prepare volatileRead .core {}).map (·.mask.isTarget 6) = .ok false := by
    decide +kernel
  have hlisting : (disassemble volatileRead.code).instructions =
      [⟨0, .ldarg0, 1, .none⟩, ⟨1, .volatile, 2, .none⟩, ⟨3, .annDataS, 3, .payload 0⟩,
        ⟨6, .ldindI4, 1, .none⟩, ⟨7, .pop, 1, .none⟩, ⟨8, .brS, 2, .branch 10⟩,
        ⟨10, .ret, 1, .none⟩] := by
    decide +kernel
  obtain ⟨_, hrecorded, _, hprotocol⟩ := verify_protocol volatileRead .core {} (.withRestarts 1)
  cases hprepare : Session.prepare volatileRead .core {} with
  | error e =>
      rw [hprepare] at hmark
      cases hmark
  | ok joins =>
      rw [hprepare] at hmark
      have hmark : joins.mask.isTarget 6 = false := Except.ok.inj hmark
      obtain ⟨before, rest, _, htold, hall, hend⟩ := hprotocol joins hprepare
      rcases hend with ⟨hvisits, hrest⟩ | ⟨_, _, e, _, herror, _⟩
      · rw [hlisting] at hvisits hall
        refine ⟨hlimits, joins, rfl, ?_, ?_⟩
        · rw [hrecorded hlimits, htold, hrest, List.append_nil]
        · -- The read is the fourth instruction.
          have hthird := congrArg (·[3]?) hvisits
          simp only [List.getElem?_map, List.getElem?_cons_succ, List.getElem?_cons_zero] at hthird
          obtain ⟨v, hv, hi⟩ := Option.map_eq_some_iff.mp hthird
          obtain ⟨operation, effect, hoperation, _, _, htells, hdirectives⟩ :=
            (hall 3 v hv).of_operation (by rw [hi]; rfl)
          refine ⟨v, List.mem_of_getElem? hv, hi, ?_⟩
          rw [hi] at hoperation
          cases hoperation
          obtain ⟨_, rfl, hdirective⟩ := htells
          have hoffset : v.offset = 6 := congrArg Instruction.offset hi
          have harrival :
              (Session.context volatileRead .core {} joins).mask.arrival 6 v.entry = [] :=
            if_neg (by simp [Session.context, hmark])
          rw [hdirectives, hoffset, harrival, hdirective]
          rfl
      · rw [haccepted] at herror
        cases herror

end ManagedCode
