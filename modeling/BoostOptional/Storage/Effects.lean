import BoostOptional.Direct
import BoostOptional.Safety.Lifetime

/-!
What the steps of the two storages of `optional.hpp` do for a scalar `T`, in terms that do not
mention the storage: the flags, the values that can be seen, and the user's conversions so far.
A scalar is initialized and assigned by the language. A conversion from another type and a factory
are the user's, and what they do depends on their arguments and on the conversions before them.
-/

namespace BoostOptional
open Effect Prog Memory

variable {α ε : Type}

/-- `T()` and `T(x)` of a scalar. -/
def builtin : Init → List Arg → Bool
  | .direct, [] => true
  | .direct, [v] => v.ty = .self
  | _, _ => false

/-- A conversion that has been made counts the same however it was selected. -/
def Init.kind : Init → Init
  | .implicit => .direct
  | how => how

def logged (how : Init) (args : List Arg) : List (Init × List Arg) :=
  if builtin how args then [] else [(how.kind, args)]

/-- The user's conversions so far, latest first. -/
def history (trace : List Call) : List (Init × List Arg) :=
  trace.flatMap fun
    | .construct how _ args => logged how args
    | _ => []

/-- Two replies that the caller cannot tell apart. -/
def Reply.Same (args : List Arg) (r r' : Reply α ε) : Prop :=
  r.threw = r'.threw ∧ r.result = r'.result ∧ ∀ v ∈ args, r.after v.loc = r'.after v.loc

/-- The operations of a scalar, and a schedule of what the user's conversions do. -/
structure Conversions (b : Behaviour α ε) : Prop where
  scalar : Scalar b
  construct : ∀ trace trace' values values' how dst dst' args, history trace = history trace' →
    (∀ v ∈ args, values v.loc = values' v.loc ∧ (values v.loc).isSome = true) →
    Reply.Same args (b trace (.construct how dst args) values)
    (b trace' (.construct how dst' args) values')

/-- What a program may refer to between two operations. -/
def Visible (w : World α) : Loc → Prop
  | .contained o => w.flag o = some true
  | .var _ => True
  | .scratch => False

def reply (b : Behaviour α ε) (how : Init) (args : List Arg) (w : World α) : Reply α ε :=
  b w.trace (.construct how .scratch args) w.value

structure Called (how : Init) (args : List Arg) (r : Reply α ε) (flag : ObjId → Option Bool)
    (w w' : World α) :
    Prop where
  flag : w'.flag = flag
  value : ∀ l, Visible w l → w'.value l = if l ∈ args.map Arg.loc then some (r.after l) else w.value l
  history : history w'.trace = logged how args ++ history w.trace
  scratch : w'.scratch = none

structure Filled (how : Init) (args : List Arg) (r : Reply α ε) (o : ObjId) (flag : ObjId → Option Bool)
    (w w' : World α) : Prop where
  flag : w'.flag = flag
  here : w'.value (.contained o) = some r.result
  others : ∀ l, Visible w l → l ≠ .contained o →
    w'.value l = if l ∈ args.map Arg.loc then some (r.after l) else w.value l
  history : history w'.trace = logged how args ++ history w.trace
  scratch : w'.scratch = none

/-- The outcome is that of one construction, with flags `before` if it throws. -/
def Builds (b : Behaviour α ε) (how : Init) (args : List Arg) (o : ObjId)
    (before flag : ObjId → Option Bool)
    (w : World α) (outcome : Outcome (World α) ε Fault Unit) : Prop :=
  (∀ e, (reply b how args w).threw = some e →
    ∃ w', outcome = .thrown e w' ∧ Called how args (reply b how args w) before w w') ∧
  ((reply b how args w).threw = none →
    ∃ w', outcome = .ok () w' ∧ Filled how args (reply b how args w) o flag w w')

/-- `o` has got the value `x`, and nothing else that can be seen changed. -/
structure Put (o : ObjId) (x : α) (flag : ObjId → Option Bool) (w w' : World α) : Prop where
  flag : w'.flag = flag
  here : w'.value (.contained o) = some x
  others : ∀ l, Visible w l → l ≠ .contained o → w'.value l = w.value l
  history : history w'.trace = history w.trace
  scratch : w'.scratch = none

/-- `o` has got the value `x`, and nothing else changed. -/
structure Stored (o : ObjId) (x : α) (flag : ObjId → Option Bool) (w w' : World α) : Prop where
  flag : w'.flag = flag
  here : w'.value (.contained o) = some x
  others : ∀ l, l ≠ .contained o → w'.value l = w.value l
  history : history w'.trace = history w.trace

/-- A state that looks like `w` to a program and has no temporary. -/
structure Alike (w u : World α) : Prop where
  value : ∀ l, Visible w l → u.value l = w.value l
  history : history u.trace = history w.trace
  scratch : u.scratch = none

section Steps

variable {w u : World α} {o : ObjId}

theorem Alike.refl (scratch : w.scratch = none) : Alike w w := ⟨fun _ _ => rfl, rfl, scratch⟩

theorem visible_not_scratch {l : Loc} (visible : Visible w l) : l ≠ .scratch := by
  rintro rfl
  exact visible

def Passed (w : World α) (args : List Arg) : Prop :=
  ∀ v ∈ args, Visible w v.loc ∧ (w.value v.loc).isSome = true

variable {b : Behaviour α ε} (conversions : Conversions b) {how : Init} {args : List Arg}

theorem Passed.all_live (passed : Passed w args) (alike : Alike w u) :
    ((args.map Arg.loc).all fun l => (value u l).isSome) = true := by
  refine List.all_eq_true.mpr fun l member => ?_
  obtain ⟨v, given, rfl⟩ := List.mem_map.mp member
  obtain ⟨visible, live⟩ := passed v given
  rw [show value u v.loc = u.value v.loc from rfl, alike.value _ visible, live]

include conversions in
theorem reply_same (how : Init) (alike : Alike w u) (passed : Passed w args) (dst : Loc) :
    Reply.Same args (b u.trace (.construct how dst args) u.value) (reply b how args w) := by
  refine conversions.construct _ _ _ _ _ _ _ _ alike.history fun v given => ?_
  obtain ⟨visible, live⟩ := passed v given
  rw [alike.value _ visible]
  exact ⟨rfl, live⟩

theorem called_of {r r' : Reply α ε} (same : Reply.Same args r r') (alike : Alike w u)
    (passed : Passed w args)
    (dst : Loc) :
    Called how args r' u.flag w (log (update u (args.map Arg.loc) r.after)
        (.construct how dst args)) where
  flag := rfl
  value l visible := by
    rw [World.called_value, alike.value l visible]
    split
    · rename_i member
      obtain ⟨v, given, rfl⟩ := List.mem_map.mp member
      rw [same.2.2 v given]
    · rfl
  history := by
    rw [← alike.history]
    rfl
  scratch := by
    have kept := World.called_value u (args.map Arg.loc) r.after (.construct how dst args) .scratch
    rw [if_neg] at kept
    · exact kept.trans alike.scratch
    · intro member
      obtain ⟨v, given, here⟩ := List.mem_map.mp member
      exact visible_not_scratch (passed v given).1 here

theorem builds_of {r : Reply α ε} {outcome : Outcome (World α) ε Fault Unit}
    {flag : ObjId → Option Bool}
    (same : Reply.Same args r (reply b how args w))
    (thrown : ∀ e, r.threw = some e → ∃ w', outcome = .thrown e w' ∧
      Called how args (reply b how args w) u.flag w w')
    (returned : r.threw = none →
      ∃ w', outcome = .ok () w' ∧ Filled how args (reply b how args w) o flag w w') :
    Builds b how args o u.flag flag w outcome :=
  ⟨fun e threw => thrown e (same.1.trans threw), fun threw => returned (same.1.trans threw)⟩

theorem place_contained (w : World α) (o : ObjId) (x : α) (l : Loc) :
    (w.setCell o (.live x)).value l = if l = .contained o then some x else w.value l :=
  w.place_value (.contained o) l x

theorem filled_of_called {r : Reply α ε} {f : ObjId → Option Bool} {w' : World α}
    (called : Called how args r f w w')
    (o : ObjId) : Filled how args r o f w (w'.setCell o (.live r.result)) where
  flag := called.flag
  here := by rw [place_contained, if_pos rfl]
  others l visible other := by rw [place_contained, if_neg other, called.value l visible]
  history := called.history
  scratch := called.scratch

include conversions in
theorem constructT_builds (alike : Alike w u) (passed : Passed w args)
    (empty : u.value (.contained o) = none) :
    Builds b how args o u.flag u.flag w (constructT b how (.contained o) args u) := by
  have same := reply_same conversions how alike passed (.contained o)
  have called : Called how args (reply b how args w) u.flag w _ :=
    called_of same alike passed (.contained o)
  have live := passed.all_live alike
  refine builds_of same (fun e threw => ?_) (fun threw => ?_)
  · exact ⟨_, constructT_throws empty live threw, called⟩
  · refine ⟨_, (constructT_returns empty live threw).trans ?_, filled_of_called called o⟩
    rw [← same.2.1]
    rfl

include conversions in
theorem placeStorage_builds (alike : Alike w u) (passed : Passed w args) :
    Builds b how args o u.flag u.flag w (Direct.placeStorage b o how args u) := by
  have same := reply_same conversions how alike passed (.contained o)
  have called : Called how args (reply b how args w) u.flag w _ :=
    called_of same alike passed (.contained o)
  have run : Direct.placeStorage b o how args u = (do
      settle (b u.trace (.construct how (.contained o) args) u.value)
      write fun w => w.setCell o (.live
        (b u.trace (.construct how (.contained o) args) u.value).result) :
        Code α ε Unit) (log (update u (args.map Arg.loc)
            (b u.trace (.construct how (.contained o) args) u.value).after)
          (.construct how (.contained o) args)) := by
    have live := passed.all_live alike
    simp only [Direct.placeStorage, bind_apply, andThen, userCall, Call.operands, live, if_true]
    rfl
  refine builds_of same (fun e threw => ?_) (fun threw => ?_)
  · exact ⟨_, run.trans (by simp only [bind_apply, andThen, settle, threw, raise_apply]), called⟩
  · refine ⟨_, run.trans ?_, filled_of_called called o⟩
    simp only [bind_apply, andThen, settle, threw, pure_apply, write_apply, same.2.1]

/-! ### Through a temporary -/

def setAt (flag : ObjId → Option Bool) (o : ObjId) (init : Option Bool) : ObjId → Option Bool :=
  fun p => if p = o then init else flag p

theorem builds_then {f g : ObjId → Option Bool} {c rest : Code α ε Unit}
    (builds : Builds b how args o f g w (c u))
    (sets : ∀ t, t.flag = g → rest t = .ok () (t.setFlag o (some true))) :
    Builds b how args o f (setAt g o (some true)) w ((do c; rest : Code α ε Unit) u) := by
  refine ⟨fun e threw => ?_, fun threw => ?_⟩
  · obtain ⟨w', run, called⟩ := builds.1 e threw
    exact ⟨w', andThen_thrown run _, called⟩
  · obtain ⟨w', run, filled⟩ := builds.2 threw
    refine ⟨w'.setFlag o (some true), (andThen_ok run _).trans (sets w' filled.flag), ?_,
      filled.here, filled.others,
      filled.history, filled.scratch⟩
    rw [← filled.flag]
    rfl

theorem builds_setInit {f g : ObjId → Option Bool} {c : Code α ε Unit}
    (builds : Builds b how args o f g w (c u)) :
    Builds b how args o f (setAt g o (some true)) w ((do c; setInit o true : Code α ε Unit) u) :=
  builds_then builds fun _ _ => rfl

include conversions in
theorem assignment_stored {v : Arg} {x : α} (self : v.ty = .self) (held : w.value v.loc = some x) :
    ∃ w', assignment b (.contained o) v w = .ok () w' ∧ Stored o x w.flag w w' := by
  obtain ⟨quiet, atDst, atSrc⟩ := conversions.scalar.assign w.trace w.value (.contained o) v x self held
  have values := World.called_value w [.contained o, v.loc]
    (b w.trace (.assign (.contained o) v) w.value).after (.assign (.contained o) v)
  have run : assignment b (.contained o) v w = .ok () (log (update w [.contained o, v.loc]
      (b w.trace (.assign (.contained o) v) w.value).after) (.assign (.contained o) v)) := by
    simp only [assignment, settle, quiet, pure_apply]
  refine ⟨_, run, rfl, ?_, fun l other => ?_, rfl⟩
  · rw [values, if_pos (by simp), atDst]
  · rw [values]
    by_cases source : l = v.loc
    · rw [if_pos (by simp [source]), source, atSrc, held]
    · rw [if_neg (by simp [other, source])]

theorem stored_setInit {x : α} {g : ObjId → Option Bool} {c : Code α ε Unit}
    (stores : ∃ w', c w = .ok () w' ∧ Stored o x g w w') :
    ∃ w', (do c; setInit o true : Code α ε Unit) w = .ok () w' ∧ Stored o x (setAt g o (some true)) w w' := by
  obtain ⟨w', run, stored⟩ := stores
  refine ⟨w'.setFlag o (some true), andThen_ok run _, ?_, stored.here, stored.others, stored.history⟩
  rw [← stored.flag]
  rfl

include conversions in
theorem throughScratch_builds {body : Code α ε Unit} {g : ObjId → Option Bool} (alike : Alike w u)
    (passed : Passed w args)
    (stores : ∀ t y, t.scratch = some y → t.flag = u.flag →
      (∀ l, l ≠ .scratch → (t.value l).isSome = (u.value l).isSome) → ∃ t', body t = .ok () t' ∧
      Stored o y g t t') :
    Builds b how args o u.flag g w
      ((do constructT b how .scratch args; bracket body (destroyT .scratch) : Code α ε Unit) u) := by
  have same := reply_same conversions how alike passed .scratch
  have called : Called how args (reply b how args w) u.flag w _ := called_of same alike passed .scratch
  have live := passed.all_live alike
  refine builds_of same (fun e threw => ?_) (fun threw => ?_)
  · exact ⟨_, andThen_thrown (constructT_throws alike.scratch live threw) _, called⟩
  · let called_at := log (update u (args.map Arg.loc)
      (b u.trace (.construct how .scratch args) u.value).after)
      (.construct how .scratch args)
    have made : constructT b how .scratch args u = .ok () { called_at with scratch := some (reply b how args w).result } := by
      rw [← same.2.1]
      exact constructT_returns alike.scratch live threw
    have occupied : ∀ l, l ≠ .scratch → (called_at.value l).isSome = (u.value l).isSome := by
      intro l _
      rw [World.called_value]
      split
      · rename_i member
        have live := List.all_eq_true.mp (passed.all_live alike) l member
        exact (show (u.value l).isSome = true from live).symm
      · rfl
    obtain ⟨t', stored_run, stored⟩ := stores { called_at with scratch := some (reply b how args w).result } _ rfl rfl
      (fun l other => by cases l with
        | scratch => exact (other rfl).elim
        | contained p => exact occupied (.contained p) other
        | var x => exact occupied (.var x) other)
    have live : (t'.value .scratch).isSome = true := by
      rw [stored.others .scratch nofun]
      rfl
    refine ⟨log (vacate t' .scratch) (.destroy .scratch), ?_, stored.flag, stored.here,
      fun l visible other => ?_,
      stored.history.trans called.history, rfl⟩
    · refine (andThen_ok made _).trans ((bracket_ok stored_run _).trans ?_)
      exact destroyT_live live
    · have notScratch := visible_not_scratch visible
      have kept : (log (vacate t' .scratch) (.destroy .scratch)).value l = t'.value l := by
        cases l with
        | scratch => exact (notScratch rfl).elim
        | contained p => rfl
        | var x => rfl
      rw [kept, stored.others l other, ← called.value l visible]
      cases l with
      | scratch => exact (notScratch rfl).elim
      | contained p => rfl
      | var x => rfl

end Steps

end BoostOptional
