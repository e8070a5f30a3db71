import VtopEngine.Meta.Effects

/-! # Reachable records

The rules by which everything about runs of `apply` is proved: an invariant of
the records is shown for `Effect` only, because a replayed request changes
nothing and the dedup table is not part of the records.  The two invariants that
need no more than the frame of a command follow at once: every record has the
kind its key names, and every stored key is the encoding of one.
-/

namespace VtopEngine.Meta

open Lib MetaStateMachine

variable [External] {machine : MetaStateMachine}

/-- An invariant of the records, shown for one effect from reachable records. -/
theorem MetaStateMachine.Reached.records_invariant (reached : machine.Reached) (Inv : Records → Prop) (base : Inv .empty)
    (keeps : ∀ (machine : MetaStateMachine) applyIndex (command : MetadataCommand) response after,
      machine.Reached → Inv machine.records → command.Effect applyIndex machine.records response after → Inv after) :
    Inv machine.records := by
  refine Reachable.invariant (fun machine => Inv machine.records) reached base ?_
  intro state event next reached invariant step
  cases apply_cases step with
  | replayed => exact invariant
  | executed _ effect => simpa using keeps _ _ _ _ _ reached invariant effect

/-- A relation between earlier and later records of a run, shown for one effect. -/
theorem MetaStateMachine.Reached.records_evolve (reached : machine.Reached)
    (run : Run Step machine events next) (Related : Records → Records → Prop) (refl : ∀ records, Related records records)
    (trans : ∀ first second third, Related first second → Related second third → Related first third)
    (effects : ∀ (machine : MetaStateMachine) applyIndex (command : MetadataCommand) response after,
      machine.Reached → command.Effect applyIndex machine.records response after → Related machine.records after) :
    Related machine.records next.records := by
  refine Run.evolves (fun machine next => Related machine.records next.records) run reached
    (fun _ => refl _) (fun _ _ _ => trans _ _ _) ?_
  intro state event next reached step
  cases apply_cases step with
  | replayed => exact refl _
  | executed _ effect => simpa using effects _ _ _ _ _ reached effect

/-! ## Kinds and keys -/

theorem MetaStateMachine.Reached.wellTyped (reached : machine.Reached) : machine.records.WellTyped := by
  refine reached.records_invariant Records.WellTyped (fun key value found => by simp at found) ?_
  intro machine applyIndex command response after _ typed effect
  exact effect.rewrites.all (fun _ _ admitted => admitted.2.1) typed

/-- Every stored key is the encoding of a key that decodes again. -/
def Records.Encoded (records : Records) : Prop :=
  ∀ bytes value, records.map[bytes]? = some value → ∃ key : MetaKey, key.encode = bytes ∧ key.NameFits

omit [External] in
theorem Records.Rewrites.encoded {allowed : MetaKey → Option MetaValue → Prop} {before after : Records}
    (rewrites : before.Rewrites allowed after) (fits : ∀ key value, allowed key (some value) → key.NameFits)
    (encoded : before.Encoded) : after.Encoded := by
  induction rewrites with
  | refl => exact encoded
  | @put _ written _ _ admitted ih =>
    intro bytes value found
    by_cases same : written.encode = bytes
    · exact ⟨written, same, fits _ _ admitted⟩
    · refine ih bytes value ?_
      simpa [Records.put, Std.ExtTreeMap.getElem?_insert, same] using found
  | @remove _ written _ _ ih =>
    intro bytes value found
    refine ih bytes value ?_
    by_cases same : written.encode = bytes
    · simp [Records.remove, same] at found
    · simpa [Records.remove, Std.ExtTreeMap.getElem?_erase, same] using found

theorem MetaStateMachine.Reached.encoded (reached : machine.Reached) : machine.records.Encoded := by
  refine reached.records_invariant Records.Encoded (fun bytes value found => by simp [Records.empty] at found) ?_
  intro machine applyIndex command response after _ encoded effect
  exact effect.rewrites.encoded (fun _ _ admitted => admitted.2.2) encoded

omit [External] in
/-- What a scan of the map sees is what the typed lookups see. -/
theorem Records.Encoded.mem_entries {records : Records} (encoded : records.Encoded) {bytes : Bytes} {value : MetaValue}
    (member : (bytes, value) ∈ records.entries) :
    ∃ key : MetaKey, key.encode = bytes ∧ MetaKey.decode bytes = .ok key ∧ records.record key = some value := by
  have found := Records.mem_entries.mp member
  obtain ⟨key, rfl, fits⟩ := encoded bytes value found
  exact ⟨key, rfl, MetaKey.decode_encode fits, found⟩

end VtopEngine.Meta
