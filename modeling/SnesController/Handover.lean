import SnesController.Conduct
import SnesController.WhitelistPath

/-!
# Two whitelists

The firmware keeps a whitelist and the Peer Manager another. Both in closed form, for every SDK and
every run: the firmware's is the list last rebuilt and the peers bonded since, cut off at its
capacity (`whitelisted_run`), a peer as often as it was bonded; the Peer Manager is handed the lists
rebuilt, each as whitelist and as identities, and no other (`listCalls_run`). So what the Peer
Manager was last handed lacks just the peers bonded since.
-/

namespace SnesController

open EventRun

variable {sdk : Sdk}

/-- The list an event has rebuilt, if it has. -/
def rebuiltBy (s : State sdk) (i : Input) : List (List PeerId) :=
  if i.evt = .pm .peersDeleteSucceeded then [rebuilt sdk (sdk.pmDeliver s.pm i.evt)] else []

/-- The lists rebuilt in a run, in order. -/
def rebuilds (s : State sdk) : List Input → List (List PeerId)
  | [] => []
  | i :: es => rebuiltBy s i ++ rebuilds (step s i) es

theorem rebuilds_concat (s : State sdk) (es : List Input) (i : Input) :
    rebuilds s (es ++ [i]) = rebuilds s es ++ rebuiltBy (run step s es) i := by
  induction es generalizing s with
  | nil => simp [rebuilds]
  | cons j es ih => simp only [List.cons_append, rebuilds, run_cons, ih, List.append_assoc]

/-- The peers bonded since the list was rebuilt, after an event. -/
def bondedAfter (peers : List PeerId) (e : Event) : List PeerId :=
  if e = .pm .peersDeleteSucceeded then [] else peers ++ (bondedPeer e).toList

/-- The peers bonded since the list was last rebuilt, in order. -/
def bondedSince (es : List Input) : List PeerId := es.foldl (fun ps i => bondedAfter ps i.evt) []

theorem bondedSince_concat (es : List Input) (i : Input) :
    bondedSince (es ++ [i]) = bondedAfter (bondedSince es) i.evt :=
  List.foldl_concat _ _ _ _

/-! ### The firmware's whitelist -/

theorem WhitelistState.run {s : State sdk} (h : WhitelistState s) (es : List Input) :
    WhitelistState (run step s es) :=
  Along.run_inv (I := WhitelistState) (fun _ i hs _ => (step_listEffect hs i).1) (along_true s es) h

/-- **One event** on a whitelist that is a list cut off: a bonding event adds its peer before the
cut, and a rebuilding starts it again. -/
theorem step_whitelisted {s : State sdk} (h : WhitelistState s) {i : Input}
    {list bonded : List PeerId}
    (hlist : s.whitelisted = (list ++ bonded).take sdk.bleGapWhitelistAddrMaxCount) :
    (step s i).whitelisted =
      ((rebuiltBy s i).getLastD list ++ bondedAfter bonded i.evt).take
        sdk.bleGapWhitelistAddrMaxCount := by
  have hlen := h.length_whitelisted
  rw [hlist, List.length_take] at hlen
  have heffect := (step_listEffect h i).2
  generalize hs' : step s i = s' at heffect ⊢
  unfold rebuiltBy bondedAfter
  generalize i.evt = e at heffect ⊢
  cases heffect with
  | kept hsame _ hfull hne =>
    rw [if_neg hne, if_neg hne, hsame.whitelisted, hlist, List.getLastD_nil]
    cases hb : bondedPeer e with
    | none => simp
    | some p =>
      have hge := hfull p hb
      rw [← List.append_assoc]
      exact (List.take_append_of_le_length (by omega)).symm
  | @added p hlt hadded _ =>
    have hne : (.pm (.connSecSucceeded p .bonding) : Event) ≠ .pm .peersDeleteSucceeded := by
      rintro ⟨⟩
    rw [if_neg hne, if_neg hne, hadded, hlist, List.getLastD_nil, bondedPeer, Option.toList_some,
      ← List.append_assoc, List.take_of_length_le (by omega), List.take_of_length_le]
    rw [List.length_append, List.length_singleton]
    omega
  | rebuilt heq =>
    rw [if_pos rfl, if_pos rfl, List.append_nil, heq, whitelisted_advertisingStart]
    exact (List.take_of_length_le (length_rebuilt_le sdk _)).symm

/-- **The firmware's whitelist**, in every run: the list last rebuilt, then the peers bonded since,
as far as there is room. -/
theorem whitelisted_run (link : sdk.Link) (pm : sdk.Pm) (uart : sdk.Uart) (es : List Input) :
    (run step (boot link pm uart) es).whitelisted =
      ((rebuilds (boot link pm uart) es).getLastD (rebuilt sdk pm) ++ bondedSince es).take
        sdk.bleGapWhitelistAddrMaxCount := by
  induction es using List.reverseRecOn with
  | nil =>
    have hboot : (boot link pm uart).whitelisted = rebuilt sdk pm := whitelisted_advertisingStart _
    rw [run_nil, hboot, rebuilds, List.getLastD_nil, bondedSince, List.foldl_nil, List.append_nil]
    exact (List.take_of_length_le (length_rebuilt_le sdk pm)).symm
  | append_singleton es i ih =>
    rw [run_concat, bondedSince_concat, rebuilds_concat,
      step_whitelisted ((boot_state link pm uart).run es) ih]
    congr 2
    unfold rebuiltBy
    split_ifs
    · rw [List.getLastD_concat]
      rfl
    · rw [List.append_nil, List.getLastD_nil]

/-! ### What the Peer Manager is handed -/

instance : DecidablePred PmCall.SetsList
  | .pmWhitelistSet _ | .pmDeviceIdentitiesListSet _ => isTrue trivial
  | .pmPeerRankHighest _ | .pmConnSecure _ _ | .pmConnSecConfigReply _ _
  | .pmLocalDatabaseHasChanged | .fdsGc => isFalse id

/-- Only a rebuilding hands a list over: the flag a disconnect looks at is not set. -/
theorem step_listCalls {s : State (recording sdk)} (hflag : s.mIsWlChangedConnection = false)
    (i : Input) :
    ((step s i).pmCalls.map Prod.fst).filter (fun c => c.SetsList) =
      (s.pmCalls.map Prod.fst).filter (fun c => c.SetsList) ++
        (rebuiltBy (s.map (forget sdk)) i).flatMap listCalls := by
  have hnew := step_new s i
  rw [hnew.adds.pm, List.map_append, List.filter_append, hnew.pm]
  congr 1
  obtain ⟨e, u⟩ := i
  cases e with
  | pm e =>
    cases e with
    | connSecFailed c missing => cases missing <;> rfl
    | _ => rfl
  | ble e =>
    cases e with
    | disconnected =>
      have hsame : (deliver s (.ble .disconnected)).mIsWlChangedConnection = false := hflag
      simp [pmRequests, hsame, rebuiltBy]
    | _ => rfl
  | _ => rfl

/-- **What the Peer Manager is handed**, in every run: the list of the start-up and those rebuilt
since, each first as whitelist and then as identities, and no other. -/
theorem listCalls_run (link : sdk.Link) (pm : sdk.Pm) (uart : sdk.Uart) (es : List Input) :
    ((run step (recordedBoot link pm uart) es).pmCalls.map Prod.fst).filter
        (fun c => c.SetsList) =
      (rebuilt sdk pm :: rebuilds (boot link pm uart) es).flatMap listCalls := by
  induction es using List.reverseRecOn with
  | nil =>
    obtain ⟨a, b, d, -, hpm, -⟩ := boot_asks link pm uart
    rw [run_nil, hpm]
    rfl
  | append_singleton es i ih =>
    have hstate : WhitelistState (run step (recordedBoot link pm uart) es) :=
      (boot_state _ _ _).run es
    rw [run_concat, step_listCalls hstate.flag, ih, rebuilds_concat, forget_run,
      ← List.flatMap_append, List.cons_append]

end SnesController
