import BoostOptional.Elementary.Operations
import BoostOptional.Safety.Lifetime

/-!
What a run leaves alone and what it asks of `T`, for every implementation. An elementary action
changes only the flags and the places it names, and makes only the call it names; a run is made of
the actions that its operations permit.
-/

namespace BoostOptional
open Effect Prog Memory

variable {α ε : Type}

/-! ### What an action can do -/

section Ends

variable (b : Behaviour α ε)

def replyTo (c : Call) (w : World α) : Reply α ε := b w.trace c w.value

/-- The state after `T`'s operation was called. -/
def World.called (c : Call) (w : World α) : World α :=
  log (Memory.update w c.operands (replyTo b c w).after) c

variable {b} {w t : World α} {threw : Option ε}

theorem constructT_ends {how : Init} {dst : Loc} {args : List Arg}
    (ends : (constructT b how dst args w).Ends threw t) :
    w.value dst = none ∧ (∀ v ∈ args, (w.value v.loc).isSome = true) ∧
      (replyTo b (.construct how dst args) w).threw = threw ∧
      t = if threw = none then
          place (w.called b (.construct how dst args)) dst (replyTo b (.construct how dst args) w).result
        else w.called b (.construct how dst args) := by
  rw [constructT_eq] at ends
  split at ends
  · exact ends.elim
  · rename_i empty
    split at ends
    · rename_i live
      refine ⟨Option.not_isSome_iff_eq_none.mp empty, fun v member =>
        List.all_eq_true.mp live _ (List.mem_map_of_mem member), ?_⟩
      dsimp only at ends
      split at ends <;> rename_i replied <;> obtain ⟨rfl, rfl⟩ := ends <;> exact ⟨replied, rfl⟩
    · exact ends.elim

theorem assignT_ends {dst : Loc} {v : Arg} (ends : (assignT b dst v w).Ends threw t) :
    (w.value dst).isSome = true ∧ (w.value v.loc).isSome = true ∧
      (replyTo b (.assign dst v) w).threw = threw ∧ t = w.called b (.assign dst v) := by
  rw [assignT_eq] at ends
  split at ends
  · rename_i live
    refine ⟨live.1, live.2, ?_⟩
    dsimp only at ends
    split at ends <;> rename_i replied <;> obtain ⟨rfl, rfl⟩ := ends <;> exact ⟨replied, rfl⟩
  · exact ends.elim

theorem invokeSwap_ends {x y : Loc} (ends : (invokeSwap b x y w).Ends threw t) :
    (w.value x).isSome = true ∧ (w.value y).isSome = true ∧
      (replyTo b (.swap x y) w).threw = threw ∧ t = w.called b (.swap x y) := by
  rw [invokeSwap_eq] at ends
  split at ends
  · rename_i live
    refine ⟨live.1, live.2, ?_⟩
    dsimp only at ends
    split at ends <;> rename_i replied <;> obtain ⟨rfl, rfl⟩ := ends <;> exact ⟨replied, rfl⟩
  · exact ends.elim

theorem destroyT_ends {dst : Loc} (ends : ((destroyT dst : Code α ε Unit) w).Ends threw t) :
    (w.value dst).isSome = true ∧ threw = none ∧ t = log (vacate w dst) (.destroy dst) := by
  unfold destroyT at ends
  split at ends
  · rename_i live
    obtain ⟨rfl, rfl⟩ := ends
    exact ⟨live, rfl, rfl⟩
  · exact ends.elim

theorem settle_ends {reply : Reply α ε} (ends : ((settle reply : Code α ε Unit) w).Ends threw t) :
    reply.threw = threw ∧ w = t := by
  unfold settle at ends
  cases replied : reply.threw with
  | none =>
    rw [replied] at ends
    exact ⟨ends.1.symm, ends.2⟩
  | some e =>
    rw [replied] at ends
    exact ⟨ends.1.symm, ends.2⟩

theorem assignStorage_ends {o : ObjId} {v : Arg} (ends : (Direct.assignStorage b o v w).Ends threw t) :
    (replyTo b (.assign (.contained o) v) w).threw = threw ∧ t = w.called b (.assign (.contained o) v) := by
  unfold Direct.assignStorage at ends
  dsimp only at ends
  split at ends
  · obtain ⟨replied, rfl⟩ := settle_ends ends
    exact ⟨replied, rfl⟩
  · exact ends.elim

theorem placeStorage_ends {o : ObjId} {how : Init} {args : List Arg}
    (ends : (Direct.placeStorage b o how args w).Ends threw t) :
    (replyTo b (.construct how (.contained o) args) w).threw = threw ∧
      t = if threw = none then
          place (w.called b (.construct how (.contained o) args)) (.contained o)
            (replyTo b (.construct how (.contained o) args) w).result
        else w.called b (.construct how (.contained o) args) := by
  simp only [Direct.placeStorage, bind_apply, andThen, userCall] at ends
  split at ends
  · rename_i reply u run
    split at run
    · obtain ⟨rfl, rfl⟩ := Outcome.ok.inj run
      unfold settle at ends
      cases replied : (b (trace w) (.construct how (.contained o) args) (value w)).threw with
      | none =>
        rw [replied] at ends
        obtain ⟨rfl, rfl⟩ := ends
        exact ⟨replied, rfl⟩
      | some e =>
        rw [replied] at ends
        obtain ⟨rfl, rfl⟩ := ends
        exact ⟨replied, rfl⟩
    · cases run
  · rename_i run
    split at run <;> cases run
  · exact ends.elim

theorem born_ends {o : ObjId} {init : Bool} (ends : ((born o init : Code α ε Unit) w).Ends threw t) :
    threw = none ∧ t = w.setFlag o (some init) := by
  unfold born at ends
  split at ends
  · obtain ⟨rfl, rfl⟩ := ends
    exact ⟨rfl, rfl⟩
  · exact ends.elim

theorem giveUp_ends {o : ObjId} (enabled : (Action.giveUp o).Enabled w)
    (ends : ((Action.giveUp o).exec b w).Ends threw t) :
    threw = none ∧ ∃ v, w.cell o = .live v ∧ t = log (w.setCell o (.stale v)) (.destroy (.contained o)) := by
  obtain ⟨rfl, rfl⟩ := ends
  refine ⟨rfl, ?_⟩
  have live : (w.cell o).value?.isSome = true := enabled
  cases cell : w.cell o with
  | live v =>
    refine ⟨v, rfl, ?_⟩
    simp only [World.giveUp, cell]
    rfl
  | vacant | stale _ | indeterminate => simp [cell, Cell.value?] at live

end Ends

/-! ### Frames -/

/-- What `act` may have done between `w` and `t`. -/
structure Action.Frame (act : Action) (w t : World α) : Prop where
  flag : ∀ o, o ∉ act.flags → t.flag o = w.flag o
  cell : ∀ o, .contained o ∉ act.places → t.cell o = w.cell o
  var : ∀ x, .var x ∉ act.places → t.var x = w.var x
  trace : t.trace = act.call.toList ++ w.trace

section Frames

variable {b : Behaviour α ε} {act : Action} {w t : World α}

theorem called_frame {c : Call} (made : act.call = some c) (operands : ∀ l ∈ c.operands, l ∈ act.places) :
    act.Frame w (w.called b c) := by
  refine ⟨fun o _ => rfl, fun o apart => if_neg ?_, fun x apart => if_neg ?_, ?_⟩
  · exact fun member => apart (operands _ member)
  · exact fun member => apart (operands _ member)
  · rw [made]
    rfl

theorem Action.Frame.place (frame : act.Frame w t) {dst : Loc} (member : dst ∈ act.places) (v : α) :
    act.Frame w (Memory.place t dst v) := by
  have other : ∀ l, l ∉ act.places → l ≠ dst := fun l apart same => apart (same ▸ member)
  cases dst with
  | contained p =>
    refine ⟨frame.flag, fun o apart => ?_, frame.var, frame.trace⟩
    exact (if_neg fun same => other _ apart (congrArg _ same)).trans (frame.cell o apart)
  | var y =>
    refine ⟨frame.flag, frame.cell, fun x apart => ?_, frame.trace⟩
    exact (if_neg fun same => other _ apart (congrArg _ same)).trans (frame.var x apart)
  | scratch => exact ⟨frame.flag, frame.cell, frame.var, frame.trace⟩

theorem constructed_frame {c : Call} {dst : Loc} {threw : Option ε} {result : α} (made : act.call = some c)
    (operands : ∀ l ∈ c.operands, l ∈ act.places) (member : dst ∈ act.places)
    (ends : t = if threw = none then Memory.place (w.called b c) dst result else w.called b c) :
    act.Frame w t := by
  rw [ends]
  split
  · exact (called_frame made operands).place member result
  · exact called_frame made operands

theorem vacate_frame {dst : Loc} (made : act.call = some (.destroy dst)) (member : dst ∈ act.places) :
    act.Frame w (log (vacate w dst) (.destroy dst)) := by
  have trace : ∀ u : World α, u.trace = w.trace → (log u (.destroy dst)).trace = act.call.toList ++ w.trace := by
    intro u same
    rw [made]
    exact congrArg (Call.destroy dst :: ·) same
  cases dst with
  | contained p =>
    refine ⟨fun _ _ => rfl, fun o apart => if_neg ?_, fun _ _ => rfl, trace _ rfl⟩
    rintro rfl
    exact apart member
  | var _ | scratch => exact ⟨fun _ _ => rfl, fun _ _ => rfl, fun _ _ => rfl, trace _ rfl⟩

theorem setFlag_frame {o : ObjId} (init : Option Bool) (named : o ∈ act.flags) (quiet : act.call = none) :
    act.Frame w (w.setFlag o init) := by
  refine ⟨fun p apart => if_neg ?_, fun _ _ => rfl, fun _ _ => rfl, by rw [quiet]; rfl⟩
  rintro rfl
  exact apart named

theorem setCell_frame {o : ObjId} (c : Cell α) (member : .contained o ∈ act.places)
    (quiet : act.call = none) : act.Frame w (w.setCell o c) := by
  refine ⟨fun _ _ => rfl, fun p apart => if_neg ?_, fun _ _ => rfl, by rw [quiet]; rfl⟩
  rintro rfl
  exact apart member

theorem Action.exec_frame {threw : Option ε} (enabled : act.Enabled w)
    (ends : (act.exec b w).Ends threw t) : act.Frame w t := by
  cases act with
  | construct how dst args =>
    obtain ⟨_, _, _, ends⟩ := constructT_ends ends
    exact constructed_frame rfl (fun l member => .tail _ member) (.head _) ends
  | assign dst v =>
    obtain ⟨_, _, _, rfl⟩ := assignT_ends ends
    exact called_frame rfl fun l member => member
  | swap x y =>
    obtain ⟨_, _, _, rfl⟩ := invokeSwap_ends ends
    exact called_frame rfl fun l member => member
  | destroy dst =>
    obtain ⟨_, _, rfl⟩ := destroyT_ends ends
    exact vacate_frame rfl (.head _)
  | giveUp o =>
    obtain ⟨-, v, -, rfl⟩ := giveUp_ends enabled ends
    refine ⟨fun _ _ => rfl, fun p apart => if_neg ?_, fun _ _ => rfl, rfl⟩
    rintro rfl
    exact apart (.head _)
  | born o init =>
    obtain ⟨-, rfl⟩ := born_ends ends
    exact setFlag_frame _ (.head _) rfl
  | setInit o init =>
    obtain ⟨-, rfl⟩ := ends
    exact setFlag_frame _ (.head _) rfl
  | release o =>
    obtain ⟨-, rfl⟩ := ends
    exact setFlag_frame _ (.head _) rfl
  | assignStorage o v =>
    obtain ⟨_, rfl⟩ := assignStorage_ends ends
    exact called_frame rfl fun l member => member
  | placeStorage o how args =>
    obtain ⟨_, ends⟩ := placeStorage_ends ends
    exact constructed_frame rfl (fun l member => .tail _ member) (.head _) ends
  | leaveStorage o =>
    obtain ⟨-, rfl⟩ := ends
    exact setCell_frame _ (.head _) rfl
  | releaseStorage o =>
    obtain ⟨-, rfl⟩ := ends
    refine ⟨fun p apart => if_neg ?_, fun p apart => if_neg ?_, fun _ _ => rfl, rfl⟩
    · rintro rfl
      exact apart (.head _)
    · rintro rfl
      exact apart (.head _)

end Frames

/-! ### Runs -/

section Runs

variable {E : Element α} {b : Behaviour α ε} {variant : Variant} {w w' : World α}
    {events : List (Op × Option ε)}

theorem Variant.run_path (run : (variant.system E b).Run w events w') :
    (elementary b).Path (fun act => ∃ event ∈ events, variant.Permits E event.1 act) w (raised events) w' :=
  run.decompose (variant.exec_uses E b)

/-- What a run leaves alone: the flags of optionals that no operation modifies, and whatever was
passed to no operation. -/
structure Untouched (ops : List Op) (w w' : World α) : Prop where
  flag : ∀ o, (∀ op ∈ ops, .named o ∉ op.modifies) → w'.flag (.named o) = w.flag (.named o)
  cell : ∀ o, (∀ op ∈ ops, .contained (.named o) ∉ op.places) → w'.cell (.named o) = w.cell (.named o)
  var : ∀ x, (∀ op ∈ ops, .var x ∉ op.places) → w'.var x = w.var x

theorem Variant.run_untouched (run : (variant.system E b).Run w events w') :
    Untouched (events.map Prod.fst) w w' := by
  refine (Variant.run_path run).invariant (I := Untouched (events.map Prod.fst) w) ?_
    ⟨fun _ _ => rfl, fun _ _ => rfl, fun _ _ => rfl⟩
  intro act s threw t permitted enabled ends before
  obtain ⟨event, member, permits⟩ := permitted
  have op : event.1 ∈ events.map Prod.fst := List.mem_map_of_mem member
  have frame := Action.exec_frame enabled ends
  refine ⟨fun o apart => ?_, fun o apart => ?_, fun x apart => ?_⟩
  · refine (frame.flag _ fun named => ?_).trans (before.flag o apart)
    exact (permits.flags _ named).elim nofun (apart _ op)
  · refine (frame.cell _ fun place => ?_).trans (before.cell o apart)
    exact apart _ op (permits.places _ place)
  · refine (frame.var _ fun place => ?_).trans (before.var x apart)
    exact apart _ op (permits.places _ place)

/-- Two optionals, one of them moved from and destroyed: the variables are as they were. -/
theorem Variant.run_untouched_move :
    ∃ w, ((Variant.direct true).system (.nontrivial Int) (intLike fun _ _ => (none : Option Unit))).Run
      (World.initial fun _ => 1)
        [(.inPlaceCtor 0 [⟨.var 0, .rvalue, .self⟩], none), (.moveCtor 1 0, none), (.destroy 1, none)] w ∧
        w.var 1 = 1 ∧ w.flag (.named 2) = none := by
  obtain ⟨w, run⟩ : ∃ w, ((Variant.direct true).system (.nontrivial Int)
      (intLike fun _ _ => (none : Option Unit))).Run (World.initial fun _ => 1)
      [(.inPlaceCtor 0 [⟨.var 0, .rvalue, .self⟩], none), (.moveCtor 1 0, none), (.destroy 1, none)] w :=
    ⟨_, .cons (by decide) ⟨rfl, rfl⟩ (.cons (by decide) ⟨rfl, rfl⟩ (.cons (by decide) ⟨rfl, rfl⟩ (.nil _)))⟩
  have untouched := Variant.run_untouched run
  exact ⟨w, run, untouched.var 1 (by decide), untouched.flag 2 (by decide)⟩

end Runs

end BoostOptional
