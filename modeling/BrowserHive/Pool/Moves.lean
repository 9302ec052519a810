import BrowserHive.Pool.Machine

/-! Everything a task of the pool can do in one step, by kind: a walk leaves the pool as it
is, every other move names what it changes. Everything a dropped future leaves behind, and
everything an action can do to the pool. The invariants of the pool are read off these. -/
namespace BrowserHive.Pool

open BrowserHive Transition

inductive Walk (cfg : Config) (p : PoolState) (tasks : List Pc) (choice : Choice) : Pc → Pc → Prop where
  | purge (free : canWrite tasks = true) (mode : cfg.scope.sessionMode = .alwaysNew) :
      Walk cfg p tasks choice .sleeping (.purging .monitor p.contexts [] [])
  | drain (free : canWrite tasks = true) (mode : cfg.scope.sessionMode = .dedicated) :
      Walk cfg p tasks choice .sleeping (.draining p.contexts [] [])
  | pick (free : canWrite tasks = true) (mode : cfg.scope.sessionMode = .reusable) :
      Walk cfg p tasks choice .sleeping (.picking p.contexts [])
  | purgeBusy (busy : p.isBusy c = true) : Walk cfg p tasks choice (.purging sweeper (c :: todo) kept leaked)
      (.purging sweeper todo (kept ++ [c]) leaked)
  | purgeIdle (idle : p.isBusy c = false) : Walk cfg p tasks choice (.purging sweeper (c :: todo) kept leaked)
      (.purging sweeper todo kept (leaked ++ [c]))
  | drainBusy (busy : p.isBusy c = true) : Walk cfg p tasks choice (.draining (c :: todo) alive expired)
      (.draining todo (alive ++ [c]) expired)
  | drainIdle (idle : p.isBusy c = false) : Walk cfg p tasks choice (.draining (c :: todo) alive expired)
      (.judging todo alive expired c)
  | expire (due : shouldRecycleContext (p.ctx c) cfg.scope.lifecycle p.now = true) :
      Walk cfg p tasks choice (.judging todo alive expired c) (.draining todo alive (expired ++ [c]))
  | spare (due : shouldRecycleContext (p.ctx c) cfg.scope.lifecycle p.now = false) :
      Walk cfg p tasks choice (.judging todo alive expired c) (.draining todo (alive ++ [c]) expired)
  | pickDue (due : shouldRecycleContext (p.ctx c) cfg.scope.lifecycle p.now = true) :
      Walk cfg p tasks choice (.picking (c :: todo) claimed) (.pickingExpired todo claimed c)
  | pickSpare (due : shouldRecycleContext (p.ctx c) cfg.scope.lifecycle p.now = false) :
      Walk cfg p tasks choice (.picking (c :: todo) claimed) (.picking todo claimed)
  | pickBusy (busy : p.isBusy c = true) :
      Walk cfg p tasks choice (.pickingExpired todo claimed c) (.picking todo claimed)
  | picked : Walk cfg p tasks choice (.picking [] claimed) (.recycling claimed)
  | recycled : Walk cfg p tasks choice (.recycling []) .sleeping
  | gone (free : canWrite tasks = true) (outside : old ∉ p.contexts) :
      Walk cfg p tasks choice (.swapping new old todo) (.releasing [new] (.recycle todo))
  | override (dedicated : lookup.params.requiresDedicatedContext = true) :
      Walk cfg p tasks choice (.acquiring (.getOrCreateContext lookup)) (.wantWrite lookup)
  | search (free : canRead tasks = true) (default : lookup.params.requiresDedicatedContext = false) :
      Walk cfg p tasks choice (.acquiring (.getOrCreateContext lookup))
        (.selecting .read (.leastUsed lookup.origin) p.contexts [] lookup)
  | refuse (free : canWrite tasks = true) (full : cfg.scope.maxContexts ≤ p.occupiedSlots) :
      Walk cfg p tasks choice (.acquiring .createDedicatedContext) .finished
  | reclaim (free : canWrite tasks = true) :
      Walk cfg p tasks choice (.acquiring .createAlwaysNewContext) (.purging .request p.contexts [] [])
  | admits (yes : selection.admits cfg.scope.lifecycle p.now (p.ctx c) = true) :
      Walk cfg p tasks choice (.selecting access selection (c :: todo) found lookup)
        (.selecting access selection todo (found ++ [c]) lookup)
  | skips (no : selection.admits cfg.scope.lifecycle p.now (p.ctx c) = false) :
      Walk cfg p tasks choice (.selecting access selection (c :: todo) found lookup)
        (.selecting access selection todo found lookup)
  | selected : Walk cfg p tasks choice (.selecting access selection [] found lookup)
      (.claiming access selection (selection.sort p.now p.ctx found) lookup)
  | lost (busy : p.isBusy c = true) :
      Walk cfg p tasks choice (.claiming access selection (c :: candidates) lookup)
        (.claiming access selection candidates lookup)
  | relock : Walk cfg p tasks choice (.claiming .read selection [] lookup) (.wantWrite lookup)
  | noneIdle : Walk cfg p tasks choice (.claiming .write (.leastUsed origin) [] lookup) (.atCapacity lookup)
  | noneUsedUp (searched : lookup.origin = some origin) (default : lookup.params.requiresDedicatedContext = false) :
      Walk cfg p tasks choice (.claiming .write .usedUp [] lookup)
        (.selecting .write (.soonestUnquarantined origin) p.contexts [] lookup)
  | giveUp (why : lookup.origin = none ∨ lookup.params.requiresDedicatedContext = true) :
      Walk cfg p tasks choice (.claiming .write .usedUp [] lookup) .finished
  | noneQuarantined :
      Walk cfg p tasks choice (.claiming .write (.soonestUnquarantined origin) [] lookup) .finished
  | skipSearch (free : canWrite tasks = true) (dedicated : lookup.params.requiresDedicatedContext = true) :
      Walk cfg p tasks choice (.wantWrite lookup) (.atCapacity lookup)
  | searchAgain (free : canWrite tasks = true) (default : lookup.params.requiresDedicatedContext = false) :
      Walk cfg p tasks choice (.wantWrite lookup)
        (.selecting .write (.leastUsed lookup.origin) p.contexts [] lookup)
  | full (full : cfg.scope.maxContexts ≤ p.occupiedSlots) :
      Walk cfg p tasks choice (.atCapacity lookup) (.selecting .write .usedUp p.contexts [] lookup)
  | handover : Walk cfg p tasks choice (.handover c) (.serving c)
  | find (free : canRead tasks = true) (inside : c ∈ p.contexts) :
      Walk cfg p tasks choice (.session c) (.found c)
  | miss (free : canRead tasks = true) (outside : c ∉ p.contexts) :
      Walk cfg p tasks choice (.session c) .finished
  | usedUp (due : (p.ctx c).isUsedUp cfg.scope.lifecycle p.now = true) :
      Walk cfg p tasks choice (.found c) (.ending c)
  | usable (due : (p.ctx c).isUsedUp cfg.scope.lifecycle p.now = false) :
      Walk cfg p tasks choice (.found c) (.continuing c)
  | spareSession (free : canWrite tasks = true) (spared : c ∉ p.contexts ∨ p.isBusy c = true) :
      Walk cfg p tasks choice (.ending c) (.continuing c)
  | taken (busy : p.isBusy c = true) : Walk cfg p tasks choice (.continuing c) .finished
  | destroy (chosen : choice = .destroy) : Walk cfg p tasks choice (.serving c) (.destroying c)
  | finish (chosen : choice = .finish) : Walk cfg p tasks choice (.serving c) (.stamping c)
  | tabLockTimeout (chosen : choice = .tabLockTimeout) :
      Walk cfg p tasks choice (.releasing (c :: todo) after) (.releasing todo after)
  | answered (sent : ∀ result, (p.calls j).thread ≠ .returned result)
      (kept : ∀ slot, (p.calls j).thread ≠ .orphaned slot) : Walk cfg p tasks choice (.answering j) .finished

inductive Returns (cfg : Config) (p : PoolState) (choice : Choice) :
    Closure → PoolState → Except Unit Slot → Prop where
  | noCdpContext (failed : choice = .fail) : Returns cfg p choice (.cdpContext .build) p (.error ())
  | withoutCdpContext (failed : choice = .fail) : Returns cfg p choice (.cdpContext .create) p (.ok ⟨none,none⟩)
  | noTab (failed : choice = .fail) :
      Returns cfg p choice (.newTab .build cdp) (p.discard cfg ⟨none,cdp⟩) (.error ())
  | withoutTab (failed : choice = .fail) : Returns cfg p choice (.newTab .create cdp) p (.ok ⟨none,cdp⟩)
  | tab (works : choice ≠ .fail) :
      Returns cfg p choice (.newTab pipeline cdp) { p with nextTab := p.nextTab + 1 } (.ok ⟨some p.nextTab,cdp⟩)

abbrev Steps (name : String) (p : PoolState) (j : Nat) (event : CdpCall.Event Slot Unit)
    (call : CdpCall.State Slot Unit) : Prop :=
  CdpCall.step CdpCall.callTimeout name (p.calls j) event = some call

inductive Move (cfg : Config) (p : PoolState) (tasks : List Pc) (choice : Choice) :
    Pc → PoolState → Pc → List Pc → Prop where
  | walk (walks : Walk cfg p tasks choice pc pc') : Move cfg p tasks choice pc p pc' []
  | purged : Move cfg p tasks choice (.purging .monitor [] kept leaked) { p with contexts := kept }
      (.releasing leaked .sleep) []
  | purgedRoom (room : ({ p with contexts := kept } : PoolState).occupiedSlots < cfg.scope.maxContexts) :
      Move cfg p tasks choice (.purging .request [] kept leaked) (reserve { p with contexts := kept })
        (.releasing leaked .build) []
  | purgedFull : Move cfg p tasks choice (.purging .request [] kept leaked) { p with contexts := kept }
      (.releasing leaked .refuse) []
  | drained : Move cfg p tasks choice (.draining [] alive expired) { p with contexts := alive }
      (.releasing expired .sleep) []
  | pickClaim (idle : p.isBusy c = false) : Move cfg p tasks choice (.pickingExpired todo claimed c)
      (p.setBusy c true) (.picking todo (claimed ++ [c])) []
  | recycle : Move cfg p tasks choice (.recycling (old :: todo)) (spawnCall (p.release cfg old))
      (.rebuilding p.nextCall old todo) [.closure p.nextCall (firstStage cfg .create)]
  | rebuilt (returned : (p.calls j).caller = .returned result)
      (made : result = .ok slot ∨ (∃ e, result = .error e) ∧ slot = ⟨none,none⟩) :
      Move cfg p tasks choice (.rebuilding j old todo) (p.addContext slot false) (.swapping p.fresh old todo) []
  | awaitRebuild (chosen : choice.event = some event) (stepped : Steps recycleCall p j event call) :
      Move cfg p tasks choice (.rebuilding j old todo) (p.setCall j call) (.rebuilding j old todo) []
  | swap (free : canWrite tasks = true) (inside : old ∈ p.contexts) :
      Move cfg p tasks choice (.swapping new old todo)
        { p with
          contexts := p.contexts.set (p.contexts.idxOf old) new
          totalContextsRecycled := p.totalContextsRecycled + 1
          totalContextsCreated := p.totalContextsCreated + 1 }
        (.recycling todo) []
  | reserveDedicated (free : canWrite tasks = true) (room : p.occupiedSlots < cfg.scope.maxContexts) :
      Move cfg p tasks choice (.acquiring .createDedicatedContext) (reserve p) .building []
  | claim (idle : p.isBusy c = false) (ready : ¬(access = .write ∧ selection = .usedUp)) :
      Move cfg p tasks choice (.claiming access selection (c :: candidates) lookup) (p.setBusy c true)
        (.handover c) []
  | claimUsedUp (idle : p.isBusy c = false) :
      Move cfg p tasks choice (.claiming .write .usedUp (c :: candidates) lookup) (p.setBusy c true)
        (.replacing c) []
  | room (room : p.occupiedSlots < cfg.scope.maxContexts) :
      Move cfg p tasks choice (.atCapacity lookup) (reserve p) .building []
  | replace : Move cfg p tasks choice (.replacing c)
      (reserve { p with contexts := p.contexts.filter (· ≠ c) }) (.releasing [c] .replace) []
  | build : Move cfg p tasks choice .building (spawnCall p) (.waiting p.nextCall)
      [.closure p.nextCall (firstStage cfg .build)]
  | built (returned : (p.calls j).caller = .returned (.ok slot)) :
      Move cfg p tasks choice (.waiting j)
        { p.addContext slot true with totalContextsCreated := p.totalContextsCreated + 1 } (.pushing p.fresh) []
  | unbuilt (returned : (p.calls j).caller = .returned (.error e)) :
      Move cfg p tasks choice (.waiting j) (unreserve p) .finished []
  | awaitBuild (chosen : choice.event = some event) (stepped : Steps createCall p j event call) :
      Move cfg p tasks choice (.waiting j) (p.setCall j call) (.waiting j) []
  | push (free : canWrite tasks = true) :
      Move cfg p tasks choice (.pushing c) (unreserve { p with contexts := p.contexts ++ [c] }) (.handover c) []
  | endSession (free : canWrite tasks = true) (inside : c ∈ p.contexts) (idle : p.isBusy c = false) :
      Move cfg p tasks choice (.ending c) { p.setBusy c true with contexts := p.contexts.erase c }
        (.releasing [c] .sessionEnded) []
  | continues (idle : p.isBusy c = false) :
      Move cfg p tasks choice (.continuing c) (p.setBusy c true) (.serving c) []
  | touch (chosen : choice = .touch) : Move cfg p tasks choice (.serving c)
      (p.modify c (fun context => { context with lastUsedAt := p.now, totalRequests := context.totalRequests + 1 }))
      (.serving c) []
  | block (chosen : choice = .block origin) : Move cfg p tasks choice (.serving c)
      (p.modify c (fun context => context.quarantineOrigin p.now origin cfg.scope.blockQuarantine)) (.serving c) []
  | remove (free : canWrite tasks = true) :
      Move cfg p tasks choice (.destroying c) (removeContext p c).1 (.releasing (removeContext p c).2 (.serve c)) []
  | cleanUp (free : canWrite tasks = true) :
      Move cfg p tasks choice (.destroy c) (removeContext p c).1 (.releasing (removeContext p c).2 .done) []
  | stamp : Move cfg p tasks choice (.stamping c) (p.modify c (fun context => { context with lastUsedAt := p.now }))
      (.clearing c) []
  | clear (mode : cfg.scope.sessionMode ≠ .alwaysNew) :
      Move cfg p tasks choice (.clearing c) (p.setBusy c false) .finished []
  | clearAlwaysNew (mode : cfg.scope.sessionMode = .alwaysNew) :
      Move cfg p tasks choice (.clearing c) (p.setBusy c false) .finished [.destroy c]
  | release (locked : choice ≠ .tabLockTimeout) :
      Move cfg p tasks choice (.releasing (c :: todo) after) (p.release cfg c) (.releasing todo after) []
  | released : Move cfg p tasks choice (.releasing [] after) (after.next p).1 (after.next p).2 []
  | cdpContext (works : choice ≠ .fail) : Move cfg p tasks choice (.closure j (.cdpContext pipeline))
      { p with nextCdpContext := p.nextCdpContext + 1 } (.closure j (.newTab pipeline (some p.nextCdpContext))) []
  | returns (made : Returns cfg p choice stage q result) (stepped : Steps createCall p j (.closureReturns result) call) :
      Move cfg p tasks choice (.closure j stage) (q.setCall j call) (.answering j) []
  | send (returned : (p.calls j).thread = .returned result) (stepped : Steps createCall p j .send call) :
      Move cfg p tasks choice (.answering j) (p.setCall j call) (.answering j) []
  | discard (orphaned : (p.calls j).thread = .orphaned slot) (stepped : Steps createCall p j .cleanup call) :
      Move cfg p tasks choice (.answering j) ((p.setCall j call).discard cfg slot) .finished []

inductive Drop (p : PoolState) : Pc → PoolState → Pc → Prop where
  | acquiring : Drop p (.acquiring call) p .finished
  | wantWrite : Drop p (.wantWrite lookup) p .finished
  | session : Drop p (.session c) p .finished
  | ending : Drop p (.ending c) p .finished
  | destroy : Drop p (.destroy c) p .finished
  | waiting (stepped : Steps createCall p j .dropCaller call) :
      Drop p (.waiting j) (unreserve (p.setCall j call)) .finished
  | pushing : Drop p (.pushing c) (unreserve p) .finished
  | serving : Drop p (.serving c) p (.stamping c)
  | destroying : Drop p (.destroying c) p (.stamping c)
  | build : Drop p (.releasing (d :: todo) .build) (unreserve p) .finished
  | replace : Drop p (.releasing (d :: todo) .replace) (unreserve p) .finished
  | serve : Drop p (.releasing (d :: todo) (.serve c)) p (.stamping c)
  | refuse : Drop p (.releasing (d :: todo) .refuse) p .finished
  | sessionEnded : Drop p (.releasing (d :: todo) .sessionEnded) p .finished
  | done : Drop p (.releasing (d :: todo) .done) p .finished

variable {cfg : Config} {p pool : PoolState} {tasks : List Pc} {choice : Choice} {pc pc' : Pc}
  {spawned : List Pc} {s t : State} {action : Action}

theorem monitor_move (moved : monitorNext cfg p tasks choice pc = some (pool,pc',spawned)) :
    Move cfg p tasks choice pc pool pc' spawned := by
  cases pc with
  | sleeping =>
    simp only [monitorNext] at moved
    split at moved
    · next free =>
      split at moved
      · next mode =>
        obtain ⟨rfl,rfl,rfl⟩ := by simpa using moved
        exact .walk (.purge free mode)
      · next mode =>
        obtain ⟨rfl,rfl,rfl⟩ := by simpa using moved
        exact .walk (.drain free mode)
      · next mode =>
        obtain ⟨rfl,rfl,rfl⟩ := by simpa using moved
        exact .walk (.pick free mode)
    · contradiction
  | draining todo alive expired =>
    cases todo with
    | nil =>
      obtain ⟨rfl,rfl,rfl⟩ := by simpa [monitorNext] using moved
      exact .drained
    | cons c todo =>
      simp only [monitorNext] at moved
      split at moved
      · next busy =>
        obtain ⟨rfl,rfl,rfl⟩ := by simpa using moved
        exact .walk (.drainBusy busy)
      · next idle =>
        obtain ⟨rfl,rfl,rfl⟩ := by simpa using moved
        exact .walk (.drainIdle (Bool.eq_false_iff.mpr idle))
  | judging todo alive expired c =>
    simp only [monitorNext] at moved
    split at moved
    · next due =>
      obtain ⟨rfl,rfl,rfl⟩ := by simpa using moved
      exact .walk (.expire due)
    · next due =>
      obtain ⟨rfl,rfl,rfl⟩ := by simpa using moved
      exact .walk (.spare (Bool.eq_false_iff.mpr due))
  | picking todo claimed =>
    cases todo with
    | nil =>
      obtain ⟨rfl,rfl,rfl⟩ := by simpa [monitorNext] using moved
      exact .walk .picked
    | cons c todo =>
      simp only [monitorNext] at moved
      split at moved
      · next due =>
        obtain ⟨rfl,rfl,rfl⟩ := by simpa using moved
        exact .walk (.pickDue due)
      · next due =>
        obtain ⟨rfl,rfl,rfl⟩ := by simpa using moved
        exact .walk (.pickSpare (Bool.eq_false_iff.mpr due))
  | pickingExpired todo claimed c =>
    simp only [monitorNext] at moved
    split at moved
    · next busy =>
      obtain ⟨rfl,rfl,rfl⟩ := by simpa using moved
      exact .walk (.pickBusy busy)
    · next idle =>
      obtain ⟨rfl,rfl,rfl⟩ := by simpa using moved
      exact .pickClaim (Bool.eq_false_iff.mpr idle)
  | recycling todo =>
    cases todo with
    | nil =>
      obtain ⟨rfl,rfl,rfl⟩ := by simpa [monitorNext] using moved
      exact .walk .recycled
    | cons old todo =>
      obtain ⟨rfl,rfl,rfl⟩ := by simpa [monitorNext] using moved
      exact .recycle
  | rebuilding j old todo =>
    simp only [monitorNext] at moved
    split at moved
    · next slot returned =>
      obtain ⟨rfl,rfl,rfl⟩ := by simpa using moved
      exact .rebuilt returned (.inl rfl)
    · next returned =>
      obtain ⟨rfl,rfl,rfl⟩ := by simpa using moved
      exact .rebuilt returned (.inr ⟨⟨_,rfl⟩,rfl⟩)
    · obtain ⟨event,call,chosen,stepped,rfl,rfl,rfl⟩ := awaitCall_cases moved
      exact .awaitRebuild chosen stepped
  | swapping new old todo =>
    simp only [monitorNext] at moved
    split at moved
    · next free =>
      split at moved
      · next inside =>
        obtain ⟨rfl,rfl,rfl⟩ := by simpa using moved
        exact .swap free inside
      · next outside =>
        obtain ⟨rfl,rfl,rfl⟩ := by simpa using moved
        exact .walk (.gone free outside)
    · contradiction
  | _ => simp [monitorNext] at moved

theorem purge_move (moved : purgeNext cfg p pc = some (pool,pc',spawned)) :
    Move cfg p tasks choice pc pool pc' spawned := by
  cases pc with
  | purging sweeper todo kept leaked =>
    cases todo with
    | cons c todo =>
      simp only [purgeNext] at moved
      split at moved
      · next busy =>
        obtain ⟨rfl,rfl,rfl⟩ := by simpa using moved
        exact .walk (.purgeBusy busy)
      · next idle =>
        obtain ⟨rfl,rfl,rfl⟩ := by simpa using moved
        exact .walk (.purgeIdle (Bool.eq_false_iff.mpr idle))
    | nil =>
      cases sweeper with
      | monitor =>
        obtain ⟨rfl,rfl,rfl⟩ := by simpa [purgeNext] using moved
        exact .purged
      | request =>
        simp only [purgeNext] at moved
        split at moved
        · next room =>
          obtain ⟨rfl,rfl,rfl⟩ := by simpa using moved
          exact .purgedRoom room
        · obtain ⟨rfl,rfl,rfl⟩ := by simpa using moved
          exact .purgedFull
  | _ => simp [purgeNext] at moved

theorem acquiring_move (moved : acquireNext cfg p tasks (.acquiring call) = some (pool,pc',spawned)) :
    Move cfg p tasks choice (.acquiring call) pool pc' spawned := by
  cases call with
  | getOrCreateContext lookup =>
    simp only [acquireNext] at moved
    split at moved
    · next dedicated =>
      obtain ⟨rfl,rfl,rfl⟩ := by simpa using moved
      exact .walk (.override dedicated)
    · next default =>
      split at moved
      · next free =>
        obtain ⟨rfl,rfl,rfl⟩ := by simpa using moved
        exact .walk (.search free (Bool.eq_false_iff.mpr default))
      · contradiction
  | createDedicatedContext =>
    simp only [acquireNext] at moved
    split at moved
    · next free =>
      split at moved
      · next full =>
        obtain ⟨rfl,rfl,rfl⟩ := by simpa using moved
        exact .walk (.refuse free full)
      · next room =>
        obtain ⟨rfl,rfl,rfl⟩ := by simpa using moved
        exact .reserveDedicated free (Nat.lt_of_not_le room)
    · contradiction
  | createAlwaysNewContext =>
    simp only [acquireNext] at moved
    split at moved
    · next free =>
      obtain ⟨rfl,rfl,rfl⟩ := by simpa using moved
      exact .walk (.reclaim free)
    · contradiction

theorem claiming_move
    (moved : acquireNext cfg p tasks (.claiming access selection candidates lookup) = some (pool,pc',spawned)) :
    Move cfg p tasks choice (.claiming access selection candidates lookup) pool pc' spawned := by
  cases candidates with
  | cons c candidates =>
    simp only [acquireNext] at moved
    split at moved
    · next busy =>
      obtain ⟨rfl,rfl,rfl⟩ := by simpa using moved
      exact .walk (.lost busy)
    · next idle =>
      split at moved
      · obtain ⟨rfl,rfl,rfl⟩ := by simpa using moved
        exact .claimUsedUp (Bool.eq_false_iff.mpr idle)
      · next ready =>
        obtain ⟨rfl,rfl,rfl⟩ := by simpa using moved
        exact .claim (Bool.eq_false_iff.mpr idle) (fun ⟨writes,used⟩ => ready writes used)
  | nil =>
    cases access with
    | read =>
      obtain ⟨rfl,rfl,rfl⟩ := by simpa [acquireNext] using moved
      exact .walk .relock
    | write =>
      cases selection with
      | leastUsed origin =>
        obtain ⟨rfl,rfl,rfl⟩ := by simpa [acquireNext] using moved
        exact .walk .noneIdle
      | soonestUnquarantined origin =>
        obtain ⟨rfl,rfl,rfl⟩ := by simpa [acquireNext] using moved
        exact .walk .noneQuarantined
      | usedUp =>
        simp only [acquireNext] at moved
        split at moved
        · next origin searched =>
          split at moved
          · next dedicated =>
            obtain ⟨rfl,rfl,rfl⟩ := by simpa using moved
            exact .walk (.giveUp (.inr dedicated))
          · next default =>
            obtain ⟨rfl,rfl,rfl⟩ := by simpa using moved
            exact .walk (.noneUsedUp searched (Bool.eq_false_iff.mpr default))
        · next searched =>
          obtain ⟨rfl,rfl,rfl⟩ := by simpa using moved
          exact .walk (.giveUp (.inl searched))

theorem acquire_move (moved : acquireNext cfg p tasks pc = some (pool,pc',spawned)) :
    Move cfg p tasks choice pc pool pc' spawned := by
  cases pc with
  | acquiring call => exact acquiring_move moved
  | claiming access selection candidates lookup => exact claiming_move moved
  | selecting access selection todo found lookup =>
    cases todo with
    | cons c todo =>
      simp only [acquireNext] at moved
      split at moved
      · next yes =>
        obtain ⟨rfl,rfl,rfl⟩ := by simpa using moved
        exact .walk (.admits yes)
      · next no =>
        obtain ⟨rfl,rfl,rfl⟩ := by simpa using moved
        exact .walk (.skips (Bool.eq_false_iff.mpr no))
    | nil =>
      obtain ⟨rfl,rfl,rfl⟩ := by simpa [acquireNext] using moved
      exact .walk .selected
  | wantWrite lookup =>
    simp only [acquireNext] at moved
    split at moved
    · next free =>
      split at moved
      · next dedicated =>
        obtain ⟨rfl,rfl,rfl⟩ := by simpa using moved
        exact .walk (.skipSearch free dedicated)
      · next default =>
        obtain ⟨rfl,rfl,rfl⟩ := by simpa using moved
        exact .walk (.searchAgain free (Bool.eq_false_iff.mpr default))
    · contradiction
  | atCapacity lookup =>
    simp only [acquireNext] at moved
    split at moved
    · next room =>
      obtain ⟨rfl,rfl,rfl⟩ := by simpa using moved
      exact .room room
    · next full =>
      obtain ⟨rfl,rfl,rfl⟩ := by simpa using moved
      exact .walk (.full (Nat.le_of_not_lt full))
  | replacing c =>
    obtain ⟨rfl,rfl,rfl⟩ := by simpa only [acquireNext,Option.some.injEq,Prod.mk.injEq] using moved
    exact .replace
  | _ => simp [acquireNext] at moved

theorem build_move (moved : buildNext cfg p tasks choice pc = some (pool,pc',spawned)) :
    Move cfg p tasks choice pc pool pc' spawned := by
  cases pc with
  | building =>
    obtain ⟨rfl,rfl,rfl⟩ := by simpa [buildNext] using moved
    exact .build
  | waiting j =>
    simp only [buildNext] at moved
    split at moved
    · next slot returned =>
      obtain ⟨rfl,rfl,rfl⟩ := by simpa using moved
      exact .built returned
    · next returned =>
      obtain ⟨rfl,rfl,rfl⟩ := by simpa using moved
      exact .unbuilt returned
    · obtain ⟨event,call,chosen,stepped,rfl,rfl,rfl⟩ := awaitCall_cases moved
      exact .awaitBuild chosen stepped
  | pushing c =>
    simp only [buildNext] at moved
    split at moved
    · next free =>
      obtain ⟨rfl,rfl,rfl⟩ := by simpa using moved
      exact .push free
    · contradiction
  | handover c =>
    obtain ⟨rfl,rfl,rfl⟩ := by simpa [buildNext] using moved
    exact .walk .handover
  | _ => simp [buildNext] at moved

theorem session_move (moved : sessionNext cfg p tasks pc = some (pool,pc',spawned)) :
    Move cfg p tasks choice pc pool pc' spawned := by
  cases pc with
  | session c =>
    simp only [sessionNext] at moved
    split at moved
    · next free =>
      split at moved
      · next inside =>
        obtain ⟨rfl,rfl,rfl⟩ := by simpa using moved
        exact .walk (.find free inside)
      · next outside =>
        obtain ⟨rfl,rfl,rfl⟩ := by simpa using moved
        exact .walk (.miss free outside)
    · contradiction
  | found c =>
    simp only [sessionNext] at moved
    split at moved
    · next due =>
      obtain ⟨rfl,rfl,rfl⟩ := by simpa using moved
      exact .walk (.usedUp due)
    · next due =>
      obtain ⟨rfl,rfl,rfl⟩ := by simpa using moved
      exact .walk (.usable (Bool.eq_false_iff.mpr due))
  | ending c =>
    simp only [sessionNext] at moved
    split at moved
    · next free =>
      split at moved
      · next spared =>
        obtain ⟨rfl,rfl,rfl⟩ := by simpa using moved
        exact .walk (.spareSession free spared)
      · next ends =>
        obtain ⟨rfl,rfl,rfl⟩ := by simpa using moved
        obtain ⟨inside,idle⟩ := not_or.mp ends
        exact .endSession free (Decidable.not_not.mp inside) (Bool.eq_false_iff.mpr idle)
    · contradiction
  | continuing c =>
    simp only [sessionNext] at moved
    split at moved
    · next busy =>
      obtain ⟨rfl,rfl,rfl⟩ := by simpa using moved
      exact .walk (.taken busy)
    · next idle =>
      obtain ⟨rfl,rfl,rfl⟩ := by simpa using moved
      exact .continues (Bool.eq_false_iff.mpr idle)
  | _ => simp [sessionNext] at moved

theorem serve_move (moved : serveNext cfg p tasks choice pc = some (pool,pc',spawned)) :
    Move cfg p tasks choice pc pool pc' spawned := by
  cases pc with
  | serving c =>
    simp only [serveNext] at moved
    split at moved
    · obtain ⟨rfl,rfl,rfl⟩ := by simpa using moved
      exact .touch rfl
    · obtain ⟨rfl,rfl,rfl⟩ := by simpa using moved
      exact .block rfl
    · obtain ⟨rfl,rfl,rfl⟩ := by simpa using moved
      exact .walk (.destroy rfl)
    · obtain ⟨rfl,rfl,rfl⟩ := by simpa using moved
      exact .walk (.finish rfl)
    · contradiction
  | destroying c =>
    simp only [serveNext] at moved
    split at moved
    · next free =>
      obtain ⟨rfl,rfl,rfl⟩ := by simpa using moved
      exact .remove free
    · contradiction
  | destroy c =>
    simp only [serveNext] at moved
    split at moved
    · next free =>
      obtain ⟨rfl,rfl,rfl⟩ := by simpa using moved
      exact .cleanUp free
    · contradiction
  | stamping c =>
    obtain ⟨rfl,rfl,rfl⟩ := by simpa [serveNext] using moved
    exact .stamp
  | clearing c =>
    simp only [serveNext] at moved
    split at moved
    · next mode =>
      obtain ⟨rfl,rfl,rfl⟩ := by simpa using moved
      exact .clearAlwaysNew mode
    · next mode =>
      obtain ⟨rfl,rfl,rfl⟩ := by simpa using moved
      exact .clear mode
  | _ => simp [serveNext] at moved

theorem release_move (moved : releaseNext cfg p choice pc = some (pool,pc',spawned)) :
    Move cfg p tasks choice pc pool pc' spawned := by
  cases pc with
  | releasing todo after =>
    cases todo with
    | nil =>
      obtain ⟨rfl,rfl,rfl⟩ := by simpa [releaseNext] using moved
      exact .released
    | cons c todo =>
      simp only [releaseNext] at moved
      split at moved
      · obtain ⟨rfl,rfl,rfl⟩ := by simpa using moved
        exact .walk (.tabLockTimeout rfl)
      · next locked =>
        obtain ⟨rfl,rfl,rfl⟩ := by simpa using moved
        exact .release locked
  | _ => simp [releaseNext] at moved

theorem return_move {q : PoolState} (made : Returns cfg p choice stage q result) (calls : q.calls = p.calls)
    (moved : returnSlot q j result = some (pool,pc',spawned)) :
    Move cfg p tasks choice (.closure j stage) pool pc' spawned := by
  obtain ⟨call,stepped,rfl,rfl,rfl⟩ := returnSlot_cases moved
  rw [calls] at stepped
  exact .returns made stepped

theorem closure_move (moved : closureNext cfg p choice pc = some (pool,pc',spawned)) :
    Move cfg p tasks choice pc pool pc' spawned := by
  cases pc with
  | closure j stage =>
    cases stage with
    | cdpContext pipeline =>
      simp only [closureNext] at moved
      split at moved
      · exact return_move (.noCdpContext rfl) rfl moved
      · exact return_move (.withoutCdpContext rfl) rfl moved
      · next build create =>
        obtain ⟨rfl,rfl,rfl⟩ := by simpa using moved
        exact .cdpContext (by rintro rfl; cases pipeline <;> simp_all)
    | newTab pipeline cdp =>
      simp only [closureNext] at moved
      split at moved
      · exact return_move (.noTab rfl) rfl moved
      · exact return_move (.withoutTab rfl) rfl moved
      · next build create =>
        exact return_move (.tab (by rintro rfl; cases pipeline <;> simp_all)) rfl moved
  | answering j =>
    simp only [closureNext] at moved
    split at moved
    · next result returned =>
      obtain ⟨_,taken,same⟩ := Option.map_eq_some_iff.mp moved
      obtain ⟨call,stepped,rfl⟩ := stepCall_cases taken
      obtain ⟨rfl,rfl,rfl⟩ := by simpa using same
      exact .send returned stepped
    · next slot orphaned =>
      obtain ⟨_,taken,same⟩ := Option.map_eq_some_iff.mp moved
      obtain ⟨call,stepped,rfl⟩ := stepCall_cases taken
      obtain ⟨rfl,rfl,rfl⟩ := by simpa using same
      exact .discard orphaned stepped
    · next sent kept =>
      obtain ⟨rfl,rfl,rfl⟩ := by simpa using moved
      exact .walk (.answered sent kept)
  | _ => simp [closureNext] at moved

theorem next_move (moved : next cfg p tasks choice pc = some (pool,pc',spawned)) :
    Move cfg p tasks choice pc pool pc' spawned := by
  unfold next at moved
  split at moved
  all_goals first
    | contradiction
    | exact monitor_move moved
    | exact purge_move moved
    | exact acquire_move moved
    | exact build_move moved
    | exact session_move moved
    | exact serve_move moved
    | exact release_move moved
    | exact closure_move moved

theorem cancelled_drop (dropped : cancelled p pc = some (pool,pc')) : Drop p pc pool pc' := by
  cases pc with
  | waiting j =>
    obtain ⟨_,taken,same⟩ := Option.map_eq_some_iff.mp dropped
    obtain ⟨call,stepped,rfl⟩ := stepCall_cases taken
    obtain ⟨rfl,rfl⟩ := by simpa using same
    exact .waiting stepped
  | releasing todo after =>
    cases todo with
    | nil => contradiction
    | cons d todo =>
      cases after with
      | sleep | recycle => contradiction
      | _ =>
        obtain ⟨rfl,rfl⟩ := by simpa [cancelled] using dropped
        constructor
  | _ =>
    simp only [cancelled] at dropped
    first
      | contradiction
      | (obtain ⟨rfl,rfl⟩ := by simpa using dropped
         constructor)

def Action.arrival : Action → Option Pc
  | .call acquired => some (.acquiring acquired)
  | .session c => some (.session c)
  | .destroy c => some (.destroy c)
  | _ => none

theorem arrival_cases (arrives : action.arrival = some pc) :
    (∃ call, pc = .acquiring call) ∨ (∃ c, pc = .session c) ∨ ∃ c, pc = .destroy c := by
  cases action with
  | call call => exact .inl ⟨call,(Option.some.inj arrives).symm⟩
  | session c => exact .inr (.inl ⟨c,(Option.some.inj arrives).symm⟩)
  | destroy c => exact .inr (.inr ⟨c,(Option.some.inj arrives).symm⟩)
  | _ => contradiction

theorem initial_task {i : Nat} (at_ : (initial cfg).tasks[i]? = some pc) : pc = .sleeping := by
  simpa [initial] using List.mem_of_getElem? at_

/-- Everything an action can do: let time pass, add a task, move one task on and spawn
others, or drop one task's future. -/
theorem step_cases (taken : step cfg s action = some t) :
    (∃ elapsed, action = .tick elapsed ∧
      t = { s with pool := { s.pool with now := s.pool.now + elapsed } }) ∨
    (∃ pc, action.arrival = some pc ∧ t = { s with tasks := s.tasks ++ [pc] }) ∨
    (∃ i choice pc pool pc' spawned, action = .run i choice ∧ s.tasks[i]? = some pc ∧
      next cfg s.pool s.tasks choice pc = some (pool,pc',spawned) ∧
      t = ⟨pool,s.tasks.set i pc' ++ spawned⟩) ∨
    (∃ i pc pool pc', action = .cancel i ∧ s.tasks[i]? = some pc ∧
      cancelled s.pool pc = some (pool,pc') ∧ t = ⟨pool,s.tasks.set i pc'⟩) := by
  cases action with
  | tick elapsed => exact Or.inl ⟨elapsed,rfl,(Option.some.inj taken).symm⟩
  | call call => exact Or.inr (Or.inl ⟨_,rfl,(Option.some.inj taken).symm⟩)
  | session c => exact Or.inr (Or.inl ⟨_,rfl,(Option.some.inj taken).symm⟩)
  | destroy c => exact Or.inr (Or.inl ⟨_,rfl,(Option.some.inj taken).symm⟩)
  | run i choice =>
    simp only [step] at taken
    split at taken
    · contradiction
    · next pc at_ =>
      split at taken
      · contradiction
      · next pool pc' spawned moved =>
        exact Or.inr (Or.inr (Or.inl
          ⟨i,choice,pc,pool,pc',spawned,rfl,at_,moved,(Option.some.inj taken).symm⟩))
  | cancel i =>
    simp only [step] at taken
    split at taken
    · contradiction
    · next pc at_ =>
      split at taken
      · contradiction
      · next pool pc' dropped =>
        exact Or.inr (Or.inr (Or.inr ⟨i,pc,pool,pc',rfl,at_,dropped,(Option.some.inj taken).symm⟩))

end BrowserHive.Pool
