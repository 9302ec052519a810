import BrowserHive.Pool.Slots

/-! Which creation made which CDP context. Each creation makes at most one, and at most one
context is built from a creation, so no two contexts share a CDP context. -/
namespace BrowserHive.Pool

open BrowserHive Transition

variable {cfg : Config} {p pool : PoolState} {tasks : List Pc} {pc pc' : Pc} {spawned : List Pc}

inductive Creation where
  | startup (context : ContextId)
  | call (call : Nat)
  deriving DecidableEq, Repr

/-- Who made the CDP contexts, and what the contexts were built from. -/
structure Origins where
  madeBy : Nat → Creation
  builtFrom : ContextId → Creation

def Origins.OfCall (o : Origins) (p : PoolState) (j : Nat) (slot : Slot) : Prop :=
  ∀ id, slot.cdpContextId = some id → id < p.nextCdpContext ∧ o.madeBy id = .call j

def Origins.OfContext (o : Origins) (p : PoolState) (c : ContextId) (slot : Slot) : Prop :=
  ∀ id, slot.cdpContextId = some id → id < p.nextCdpContext ∧ o.madeBy id = o.builtFrom c

structure Traced (o : Origins) (s : State) : Prop where
  sourced : Sourced (o.OfCall s.pool) (o.OfContext s.pool) s
  /-- At most one context is built from a creation. -/
  single : ∀ c d, c < s.pool.fresh → d < s.pool.fresh → o.builtFrom c = o.builtFrom d → c = d
  /-- Nobody waits for a creation that a context was built from. -/
  spent : ∀ c j, c < s.pool.fresh → o.builtFrom c = .call j → j < s.pool.nextCall ∧
    ∀ (i : Nat) (pc : Pc), s.tasks[i]? = some pc → pc.caller ≠ some j
  /-- A call has one receiver. -/
  receiver : ∀ (i k : Nat) (a b : Pc) j, s.tasks[i]? = some a → s.tasks[k]? = some b →
    a.caller = some j → b.caller = some j → i = k

/-- The tasks a step leaves behind wait for the calls they waited for, and for a new one. -/
theorem Calling.caller (calling : Calling p pc pool pc' spawned) :
    (∀ x ∈ spawned, x.caller = none) ∧
    (pc'.caller = pc.caller ∨ pc'.caller = none ∨ (pc'.caller = some p.nextCall ∧ pool.nextCall = p.nextCall + 1)) := by
  cases calling with
  | quiet calls next spawns thread caller =>
    exact ⟨fun x born => (spawns x born).1,caller.imp_right fun gone => .inl gone.1⟩
  | spawn stage calls next spawns former thread caller =>
    refine ⟨fun x born => ?_,.inr (.inr ⟨caller,next⟩)⟩
    obtain rfl := List.mem_singleton.mp (spawns ▸ born)
    rfl
  | event j name event call stepped calls next spawns party thread caller drops =>
    exact ⟨by simp [spawns],caller.imp_right fun dropped => .inl (drops dropped).2⟩

theorem Calling.caller_cases {s : State} {i k : Nat} (calling : Calling s.pool pc pool pc' spawned)
    (at_ : s.tasks[i]? = some pc) (atK : (s.tasks.set i pc' ++ spawned)[k]? = some x) (waits : x.caller = some j) :
    (∃ y, s.tasks[k]? = some y ∧ y.caller = some j) ∨ (k = i ∧ j = s.pool.nextCall ∧ pool.nextCall = s.pool.nextCall + 1) := by
  obtain ⟨born,moved⟩ := calling.caller
  rcases Tasks.getElem?_set_append at_ pc' spawned atK with ⟨rfl,rfl⟩ | ⟨_,atK⟩ | ⟨_,new⟩
  · rcases moved with same | gone | ⟨fresh,next⟩
    · exact .inl ⟨pc,at_,same ▸ waits⟩
    · simp [gone] at waits
    · exact .inr ⟨rfl,by simpa [fresh] using waits.symm,next⟩
  · exact .inl ⟨x,atK,waits⟩
  · simp [born x new] at waits

theorem Traced.pass {o o' : Origins} {s : State} {i : Nat} (traced : Traced o s) (calls : CallInvariant s)
    (at_ : s.tasks[i]? = some pc) (calling : Calling s.pool pc pool pc' spawned) (fresh : pool.fresh = s.pool.fresh)
    (builtFrom : o'.builtFrom = o.builtFrom)
    (sourced : Sourced (o'.OfCall pool) (o'.OfContext pool) ⟨pool,s.tasks.set i pc' ++ spawned⟩) :
    Traced o' ⟨pool,s.tasks.set i pc' ++ spawned⟩ := by
  have known : ∀ (k : Nat) (y : Pc) j, s.tasks[k]? = some y → y.caller = some j → j < s.pool.nextCall :=
    fun k y j atK waits => calls.known k y j atK (.inl waits)
  refine ⟨sourced,?_,?_,?_⟩
  · intro c d hc hd same
    rw [builtFrom] at same
    exact traced.single c d (fresh ▸ hc) (fresh ▸ hd) same
  · intro c j hc from_
    rw [builtFrom] at from_
    obtain ⟨older,nobody⟩ := traced.spent c j (fresh ▸ hc) from_
    refine ⟨Nat.lt_of_lt_of_le older calling.nextCall_le,fun k x atK waits => ?_⟩
    rcases calling.caller_cases at_ atK waits with ⟨y,before,own⟩ | ⟨_,rfl,_⟩
    · exact nobody k y before own
    · exact Nat.lt_irrefl _ older
  · intro k l a b j atK atL own other
    rcases calling.caller_cases at_ atK own with ⟨y,before,mine⟩ | ⟨rfl,rfl,_⟩ <;>
      rcases calling.caller_cases at_ atL other with ⟨z,former,yours⟩ | ⟨rfl,same,_⟩
    · exact traced.receiver k l y z j before former mine yours
    · exact absurd (known k y j before mine) (same ▸ Nat.lt_irrefl _)
    · exact absurd (known l z _ former yours) (Nat.lt_irrefl _)
    · rfl

theorem origins_sourcing {o o' : Origins} (contexts : p.nextCdpContext ≤ pool.nextCdpContext)
    (madeBy : ∀ id, id < p.nextCdpContext → o'.madeBy id = o.madeBy id)
    (builtFrom : ∀ c, c < p.fresh → o'.builtFrom c = o.builtFrom c)
    (context : ∀ j pipeline, pc = .closure j (.cdpContext pipeline) → pool.nextCdpContext = p.nextCdpContext + 1 →
      o'.madeBy p.nextCdpContext = .call j)
    (built : ∀ j, pc.caller = some j → pool.fresh = p.fresh + 1 → o'.builtFrom p.fresh = .call j) :
    Sourcing (o.OfCall p) (o'.OfCall pool) (o.OfContext p) (o'.OfContext pool) p pc pool := by
  have kept : ∀ j slot, o.OfCall p j slot → o'.OfCall pool j slot := by
    intro j slot made id mine
    obtain ⟨older,call⟩ := made id mine
    exact ⟨Nat.lt_of_lt_of_le older contexts,(madeBy id older).trans call⟩
  have placed : ∀ c slot, c < p.fresh → o.OfContext p c slot → o'.OfContext pool c slot := by
    intro c slot known made id mine
    obtain ⟨older,same⟩ := made id mine
    exact ⟨Nat.lt_of_lt_of_le older contexts,by rw [madeBy id older,builtFrom c known,same]⟩
  refine ⟨kept,by simp [Origins.OfCall],?_,fun j cdp _ _ made => kept j _ made,placed,
    fun c slot known made => placed c _ known made,?_⟩
  · intro j pipeline here grown id mine
    obtain rfl : p.nextCdpContext = id := by simpa using mine
    exact ⟨by omega,context j pipeline here grown⟩
  · rintro j slot waits grown _ (made | rfl) id mine
    · obtain ⟨older,call⟩ := made id mine
      exact ⟨Nat.lt_of_lt_of_le older contexts,by rw [madeBy id older,built j waits grown,call]⟩
    · contradiction

theorem Traced.run {o : Origins} {s : State} {i : Nat} (traced : Traced o s) (calls : CallInvariant s)
    (at_ : s.tasks[i]? = some pc) (slotted : Slotted cfg s.pool pc pool pc' spawned)
    (calling : Calling s.pool pc pool pc' spawned) : ∃ o', Traced o' ⟨pool,s.tasks.set i pc' ++ spawned⟩ := by
  have moved : ∀ o' : Origins, Sourcing (o.OfCall s.pool) (o'.OfCall pool) (o.OfContext s.pool) (o'.OfContext pool)
      s.pool pc pool → Sourced (o'.OfCall pool) (o'.OfContext pool) ⟨pool,s.tasks.set i pc' ++ spawned⟩ :=
    fun o' sourcing => traced.sourced.move at_ slotted sourcing
  have still : pool.fresh = s.pool.fresh → pool.nextCdpContext = s.pool.nextCdpContext →
      ∃ o', Traced o' ⟨pool,s.tasks.set i pc' ++ spawned⟩ := by
    intro fresh contexts
    refine ⟨o,traced.pass calls at_ calling fresh rfl (moved o ?_)⟩
    exact origins_sourcing (Nat.le_of_eq contexts.symm) (fun _ _ => rfl) (fun _ _ => rfl)
      (fun _ _ _ grown => absurd (contexts.symm.trans grown) (Nat.succ_ne_self _).symm)
      (fun _ _ grown => absurd (fresh.symm.trans grown) (Nat.succ_ne_self _).symm)
  cases slotted with
  | quiet fresh tabs contexts => exact still fresh contexts
  | returned j stage slot here made fresh contexts => exact still fresh contexts
  | context j pipeline here pool_ =>
    subst pool_ here
    refine ⟨{ o with madeBy := Function.update o.madeBy s.pool.nextCdpContext (.call j) },
      traced.pass calls at_ calling rfl rfl (moved _ ?_)⟩
    refine origins_sourcing (Nat.le_succ _) (fun id older => by simp [Nat.ne_of_lt older]) (fun _ _ => rfl)
      (fun k _ same _ => ?_) (fun k waits => by simp [Pc.caller] at waits)
    obtain rfl : j = k := by simpa using And.left (by simpa using same)
    simp
  | built j slot waits origin fresh tabs contexts slots calls_ done gave alone =>
    subst alone
    have apart : ∀ c, c < s.pool.fresh → o.builtFrom c ≠ .call j := fun c known same =>
      (traced.spent c j known same).2 i pc at_ waits
    have older : ∀ c, c < pool.fresh → c ≠ s.pool.fresh → c < s.pool.fresh := fun c known other =>
      Nat.lt_of_le_of_ne (Nat.le_of_lt_succ (Nat.lt_of_lt_of_eq known fresh)) other
    have waiting : ∀ (k : Nat) (x : Pc) l, (s.tasks.set i pc' ++ [])[k]? = some x → x.caller = some l →
        k ≠ i ∧ ∃ y, s.tasks[k]? = some y ∧ y.caller = some l := by
      intro k x l atK own
      rcases Tasks.getElem?_set_append at_ pc' [] atK with ⟨rfl,rfl⟩ | ⟨other,atK⟩ | ⟨_,new⟩
      · simp [gave] at own
      · exact ⟨other,x,atK,own⟩
      · contradiction
    have next : s.pool.nextCall ≤ pool.nextCall := calling.nextCall_le
    refine ⟨{ o with builtFrom := Function.update o.builtFrom s.pool.fresh (.call j) },moved _ ?_,?_,?_,?_⟩
    · refine origins_sourcing (Nat.le_of_eq contexts.symm) (fun _ _ => rfl)
        (fun c known => by simp [Nat.ne_of_lt known])
        (fun _ _ _ grown => absurd (contexts.symm.trans grown) (Nat.succ_ne_self _).symm)
        (fun k same _ => ?_)
      obtain rfl := Option.some.inj (waits.symm.trans same)
      simp
    · intro c d hc hd same
      by_cases newC : c = s.pool.fresh <;> by_cases newD : d = s.pool.fresh
      · exact newC.trans newD.symm
      · subst newC
        simp only [Function.update_self,Function.update_of_ne newD] at same
        exact absurd same.symm (apart d (older d hd newD))
      · subst newD
        simp only [Function.update_self,Function.update_of_ne newC] at same
        exact absurd same (apart c (older c hc newC))
      · simp only [Function.update_of_ne newC,Function.update_of_ne newD] at same
        exact traced.single c d (older c hc newC) (older d hd newD) same
    · intro c l hc from_
      by_cases new : c = s.pool.fresh
      · subst new
        obtain rfl : j = l := by simpa using from_
        refine ⟨Nat.lt_of_lt_of_le (calls.known i pc j at_ (.inl waits)) next,fun k x atK own => ?_⟩
        obtain ⟨other,y,before,mine⟩ := waiting k x j atK own
        exact other (traced.receiver k i y pc j before at_ mine waits)
      · simp only [Function.update_of_ne new] at from_
        obtain ⟨known,nobody⟩ := traced.spent c l (older c hc new) from_
        refine ⟨Nat.lt_of_lt_of_le known next,fun k x atK own => ?_⟩
        obtain ⟨_,y,before,mine⟩ := waiting k x l atK own
        exact nobody k y before mine
    · intro k l a b m atK atL own other
      obtain ⟨_,y,before,mine⟩ := waiting k a m atK own
      obtain ⟨_,z,former,yours⟩ := waiting l b m atL other
      exact traced.receiver k l y z m before former mine yours

theorem Traced.arrive {o : Origins} {s : State} (traced : Traced o s) (stranger : pc.halfway = none)
    (alone : pc.caller = none) : Traced o ⟨s.pool,s.tasks ++ [pc]⟩ := by
  have older : ∀ (k : Nat) (x : Pc) j, (s.tasks ++ [pc])[k]? = some x → x.caller = some j → s.tasks[k]? = some x := by
    intro k x j atK waits
    rcases Tasks.getElem?_append_cases atK with atK | ⟨_,rfl⟩
    · exact atK
    · simp [alone] at waits
  refine ⟨traced.sourced.arrive stranger,traced.single,fun c j known from_ => ?_,?_⟩
  · obtain ⟨call,nobody⟩ := traced.spent c j known from_
    exact ⟨call,fun k x atK waits => nobody k x (older k x j atK waits) waits⟩
  · intro k l a b j atK atL mine yours
    exact traced.receiver k l a b j (older k a j atK mine) (older l b j atL yours) mine yours

theorem Traced.step {o : Origins} {s t : State} (traced : Traced o s) (calls : CallInvariant s)
    (taken : step cfg s action = some t) : ∃ o', Traced o' t := by
  rcases step_cases taken with ⟨_,_,rfl⟩ | ⟨pc,arrives,rfl⟩ | ⟨i,_,pc,pool,pc',spawned,_,at_,moved,rfl⟩ |
    ⟨i,pc,pool,pc',_,at_,dropped,rfl⟩
  · exact ⟨o,⟨traced.sourced.values,traced.sourced.halfway,traced.sourced.contexts⟩,traced.single,traced.spent,
      traced.receiver⟩
  · have stranger : pc.halfway = none ∧ pc.caller = none := by
      rcases arrival_cases arrives with ⟨_,rfl⟩ | ⟨_,rfl⟩ | ⟨_,rfl⟩ <;> exact ⟨rfl,rfl⟩
    exact ⟨o,traced.arrive stranger.1 stranger.2⟩
  · exact traced.run calls at_ (next_slotted calls.valid moved) (next_calling moved)
  · obtain ⟨slotted,_⟩ : Slotted cfg s.pool pc pool pc' [] ∧ _ := cancelled_slotted calls.valid dropped
    simpa using traced.run calls at_ slotted (cancelled_calling dropped)

theorem Traced.initial (cfg : Config) : Traced ⟨.startup,.startup⟩ (Pool.initial cfg) := by
  refine ⟨Sourced.initial fun c known id mine => ?_,fun c d _ _ same => by simpa using same,by simp,?_⟩
  · cases isolation : cfg.scope.contextIsolation with
    | shared => simp [initialSlot,isolation] at mine
    | isolated =>
      obtain rfl : c = id := by simpa [initialSlot,isolation] using mine
      exact ⟨(initial_populated cfg).cdpContexts isolation ▸ known,rfl⟩
  · intro i k a b j ati atk waits
    simp [initial_task ati,Pc.caller] at waits

/-- No two contexts share a CDP context. -/
theorem Traced.distinct {o : Origins} {s : State} {id : Nat} (traced : Traced o s) (hc : c < s.pool.fresh)
    (hd : d < s.pool.fresh)
    (mine : (s.pool.ctx c).cdpContextId = some id) (yours : (s.pool.ctx d).cdpContextId = some id) : c = d := by
  have made := (traced.sourced.contexts c hc id mine).2
  rw [(traced.sourced.contexts d hd id yours).2] at made
  exact traced.single c d hc hd made.symm

end BrowserHive.Pool
