import Nl6.Engine.Superseded

/-! # Runs of requests, goroutines and cancellations

One lemma for each request says that it keeps `RevertPool.Sound`, if it does not fall into one of the
two windows. `superseded_reverts` follows by induction over runs.
-/

namespace Nl6

open Program

namespace RevertPool

open RevertWorld

variable {pool : RevertPool} {front back : List RevertThread} {t : RevertThread}
  {w' : RevertWorld} {seen' : RevertStage} {rest' : IfStating CallResult}
  {program : IfStating CallResult}

/-! ### The requests one by one -/

section Requests

variable {op : IfStateOp} {choice : IfStateChoice} {reply : op.Reply} {u : RevertThread}
  {began rt : Nat} {key : RevertKey} {keys : List RevertKey} {store : IfStateStore}

theorem inside_of_wrote (mem : u ∈ pool.threads) (tag : u.tag = .post began key)
    (wrote : pool.shared.Wrote began key) : pool.inside key = true := by
  obtain ⟨unreturned, m, mutated, -⟩ := wrote
  refine List.any_eq_true.mpr ⟨u, mem, ?_⟩
  rw [tag]
  simp [mutated, unreturned]

/-- A revert whose flag is down is in the map, if no request on its leaf is under way. -/
theorem Sound.entry_of_down (sound : pool.Sound) (holds : pool.shared.Holds rt key)
    (down : pool.shared.isDone rt = false) (outside : pool.inside key = false) :
    pool.shared.store.entries key = some rt := by
  rcases sound.pending rt key holds with done | entry | ⟨u, mem, own, stage⟩
  · exact nomatch down.symm.trans done
  · exact entry
  · have fits := sound.fits u mem
    rw [stage] at fits
    obtain ⟨began, tag, -, written, -⟩ := fits.post
    exact nomatch outside.symm.trans (inside_of_wrote mem tag written)

/-- **Winning.** A revert that wins its flag while no request on its leaf is under way was registered
after every call that has superseded the reverts of the leaf. -/
theorem Sound.winner_is_newer (sound : pool.Sound) {r : Nat}
    (registered : pool.shared.history.registered rt = some (r, key))
    (down : pool.shared.isDone rt = false) (outside : pool.inside key = false)
    (mem : u ∈ pool.threads) {covers : RevertKey → Prop} (watches : u.seen.Watches covers)
    (covered : covers key) (call : RevertToken.call began ∈ u.tag.tokens) : began < r := by
  have entry := sound.entry_of_down ⟨r, registered⟩ down outside
  -- What is in the map is newer than the call.
  have newer : ∀ {covers : RevertKey → Prop}, covers key →
      pool.shared.Renewed covers began → began < r := by
    intro covers covered renewed
    obtain ⟨r', known, after⟩ := renewed key rt covered entry
    obtain ⟨rfl, -⟩ := Prod.mk.inj (Option.some.inj (registered.symm.trans known))
    exact after
  have fits := sound.fits u mem
  cases stage : u.seen with
  | post key' p =>
    rw [stage] at fits watches
    obtain ⟨rfl, started, closed⟩ := watches
    subst covered
    obtain ⟨began', tag, -, fits⟩ := fits.post
    rw [tag] at call
    obtain rfl := RevertToken.call.inj (List.mem_singleton.mp call)
    cases p with
    | fresh => exact absurd rfl started
    | written => exact nomatch outside.symm.trans (inside_of_wrote mem tag fits)
    | made => exact nomatch outside.symm.trans (inside_of_wrote mem tag fits.1)
    | swapped => exact nomatch outside.symm.trans (inside_of_wrote mem tag fits.1)
    | returned superseded =>
      cases superseded with
      | false => exact absurd rfl closed
      | true => exact @newer (· = key) rfl (fits rfl).2
  | revert =>
    rw [stage] at watches
    exact watches.elim
  | cancel ip c =>
    rw [stage] at fits watches
    obtain ⟨rfl, rfl⟩ := watches
    obtain ⟨began', tag, -, -, renewed⟩ := fits.cancel
    rw [tag] at call
    obtain rfl := RevertToken.call.inj (List.mem_singleton.mp call)
    exact newer covered renewed

variable (sound : pool.Sound) (threads : pool.threads = front ++ t :: back)
include sound threads

theorem Sound.fits_at : pool.shared.Fits t.tag t.seen :=
  sound.fits t (threads ▸ List.mem_append_right _ List.mem_cons_self)

/-- A request that leaves its maker where it was. -/
theorem Sound.idle_step (same : Same pool.shared w') : pool.Moves front back t w' t.seen :=
  sound.same_step threads same ((sound.fits_at threads).spared (same.spares _ _)) rfl
    fun _ _ => .inl

theorem Sound.range_step {ip : String} (stage : t.seen = .cancel ip .fresh)
    (served : pool.shared.serve t.tag .range choice = some (w', keys)) :
    pool.Moves front back t w' (.cancel ip (.visiting keys)) := by
  have same := serve_idle rfl served
  have fits := sound.fits_at threads
  obtain ⟨inner, -⟩ := serve_eq served
  refine sound.same_step threads same ?_ (by rw [stage]; rfl) (by simp [stage])
  rw [stage] at fits
  obtain ⟨began, tag, earlier, -⟩ := fits.cancel
  rw [tag]
  refine ⟨rfl, by rw [same.history]; exact Nat.lt_succ_of_lt earlier, ?_⟩
  -- What is in the map now is among the keys.
  rintro key rt ⟨-, unlisted⟩ entry
  rw [same.entries] at entry
  obtain ⟨keyed, -⟩ := sound.world.entries key rt entry
  obtain ⟨timer, found, named⟩ := Option.map_eq_some_iff.mp keyed
  simp only [IfStateStore.serve] at inner
  split_ifs at inner with all
  obtain ⟨-, rfl⟩ := Prod.mk.inj (Option.some.inj inner)
  have listed := List.all_eq_true.mp all timer (List.mem_of_getElem? found)
  rw [named, entry] at listed
  simp only [reduceCtorEq, decide_false, Bool.false_or, decide_eq_true_eq] at listed
  exact absurd listed unlisted

theorem Sound.load_step {ip : String} {found : Option Nat}
    (stage : t.seen = .cancel ip (.visiting (key :: keys)))
    (served : pool.shared.serve t.tag (.load key) choice = some (w', found)) :
    pool.Moves front back t w' (t.seen.loads found) := by
  have same := serve_idle rfl served
  have fits := sound.fits_at threads
  obtain ⟨inner, -⟩ := serve_eq served
  obtain ⟨-, entry⟩ := Prod.mk.inj (Option.some.inj inner)
  have tokens : (t.seen.loads found).tokens = t.seen.tokens := by
    rw [stage]
    cases found with
    | none => rfl
    | some rt =>
      rw [RevertStage.loads_some]
      split_ifs <;> rfl
  refine sound.same_step threads same ?_ tokens (by simp [stage])
  rw [stage] at fits ⊢
  obtain ⟨began, tag, earlier, renewed⟩ := fits.cancel
  rw [tag]
  have renewed := Renewed.later renewed same.later earlier
  have further : began < w'.history.clock := by
    rw [same.history]
    exact Nat.lt_succ_of_lt earlier
  -- A key that is passed over holds nothing of this device.
  have passed : (key.ip = ip → w'.store.entries key = none) →
      w'.Renewed (fun k => k.ip = ip ∧ k ∉ keys) began := by
    rintro nothing k rt ⟨mine, unlisted⟩ is
    by_cases here : k = key
    · subst here
      rw [nothing mine] at is
      exact nomatch is
    · exact renewed k rt ⟨mine, by simp [here, unlisted]⟩ is
  rw [← same.entries] at entry
  cases found with
  | none => exact ⟨rfl, further, passed fun _ => entry⟩
  | some rt =>
    rw [RevertStage.loads_some]
    split_ifs with mine
    · refine ⟨rfl, further, renewed, ?_, ?_⟩
      · rw [same.entries] at entry
        exact (sound.world.entries key rt entry).2.later same.later
      · intro rt' is
        exact .inl (Option.some.inj (is.symm.trans entry))
    · exact ⟨rfl, further, passed fun yes => absurd yes mine⟩

theorem Sound.other_call (mine : RevertToken.call began ∈ t.tag.tokens) (other : u ∈ front ++ back)
    {began' : Nat} (theirs : RevertToken.call began' ∈ u.tag.tokens) : began' ≠ began := by
  rintro rfl
  have once := sound.once
  rw [threads] at once
  exact Pool.tokens_disjoint once (List.mem_append_right _ mine) other
    (List.mem_append_right _ theirs)

theorem Sound.other_token {token : RevertToken} (mine : token ∈ t.seen.tokens)
    (other : u ∈ front ++ back) : token ∉ u.seen.tokens := by
  intro theirs
  have once := sound.once
  rw [threads] at once
  exact Pool.tokens_disjoint once (List.mem_append_left _ mine) other
    (List.mem_append_left _ theirs)

/-- A call marks in the history what it has done. -/
theorem Sound.call_step {mutated returned : Nat → Option Nat}
    (mine : RevertToken.call began ∈ t.tag.tokens) (earlier : began < pool.shared.history.clock)
    (same : Same pool.shared
      ⟨store, { pool.shared.history with clock := pool.shared.history.clock + 1 }⟩)
    (mutates : ∀ b ≠ began, mutated b = pool.shared.history.mutated b)
    (returns : ∀ b ≠ began, returned b = pool.shared.history.returned b)
    (history : w' = ⟨store, { pool.shared.history with
      mutated := mutated
      returned := returned
      clock := pool.shared.history.clock + 1 }⟩) (own : Later pool.shared w' → w'.Fits t.tag seen')
    (tokens : seen'.tokens.Sublist t.seen.tokens) (raises : ∀ key rt, ¬ t.seen.Raises key rt) :
    pool.Moves front back t w' seen' := by
  have world := sound.world.same same
  have later : Later pool.shared w' := by
    subst history
    exact ⟨rfl, same.later.keyOf, same.isDone, same.later.kept, same.later.new, same.later.won,
      same.later.entries⟩
  refine sound.marks_step threads ?_ (own later) ?_ (by rw [history])
    (by rw [history]; exact same.entries) later.isDone tokens
    fun key rt raising => absurd raising (raises key rt)
  · subst history
    refine ⟨world.entries, world.done, world.past, world.dated, world.started, ?_⟩
    intro b after
    have other : b ≠ began := by
      simp only at after
      omega
    exact ⟨(mutates b other).trans (world.future b after).1,
      (returns b other).trans (world.future b after).2⟩
  · intro u other
    have won : w'.history.won = pool.shared.history.won := by rw [history]
    have wrote : w'.history.wrote = pool.shared.history.wrote := by rw [history]
    refine ⟨later, ?_, by rw [history]; exact fun _ _ => id, by rw [history]; exact fun _ _ => id,
      fun _ _ _ _ before _ quiet => quiet.later later won wrote before⟩
    intro began' theirs
    have distinct := sound.other_call threads mine other theirs
    rw [history]
    exact ⟨mutates began' distinct, returns began' distinct⟩

theorem Sound.post_writes (stage : t.seen = .post key .fresh) (tag : t.tag = .post began key)
    (same : Same pool.shared
      ⟨store, { pool.shared.history with clock := pool.shared.history.clock + 1 }⟩)
    (calm : pool.shared.firing (fun k => k = key) = false)
    (history : w' = ⟨store, { pool.shared.history with
      mutated := Function.update pool.shared.history.mutated began
        (some pool.shared.history.clock)
      clock := pool.shared.history.clock + 1 }⟩) :
    pool.Moves front back t w' (.post key .written) := by
  have fits := sound.fits_at threads
  rw [stage] at fits
  obtain ⟨began', tag', earlier, -, unreturned⟩ := fits.post
  obtain ⟨rfl, -⟩ := Party.post.inj (tag.symm.trans tag')
  refine sound.call_step threads (by rw [tag]; exact List.mem_cons_self) earlier same
    (fun b other => Function.update_of_ne other _ _) (fun _ _ => rfl) history
    (fun later => ?_) (by rw [stage]; exact .refl _) (by simp [stage])
  · rw [tag]
    have won : w'.history.won = pool.shared.history.won := by rw [history]
    have wrote : w'.history.wrote = pool.shared.history.wrote := by rw [history]
    have quiet := quiet_of_not_firing sound.world began calm
    simp only [decide_eq_true_eq] at quiet
    have still := quiet.later later won wrote earlier
    subst history
    exact ⟨rfl, Nat.lt_succ_of_lt earlier, unreturned, _, Function.update_self _ _ _, still⟩

theorem Sound.revert_writes (stage : t.seen = .revert key rt .won) (same : Same pool.shared
      ⟨store, { pool.shared.history with clock := pool.shared.history.clock + 1 }⟩)
    (history : w' = ⟨store, { pool.shared.history with
      wrote := Function.update pool.shared.history.wrote rt (some pool.shared.history.clock)
      clock := pool.shared.history.clock + 1 }⟩) :
    pool.Moves front back t w' (.revert key rt .finished) := by
  have fits := sound.fits_at threads
  rw [stage] at fits
  obtain ⟨tag, holds, won, unwritten⟩ := fits.revert
  have world := sound.world.same same
  subst history
  have later : Later pool.shared ⟨store, { pool.shared.history with
      wrote := Function.update pool.shared.history.wrote rt (some pool.shared.history.clock)
      clock := pool.shared.history.clock + 1 }⟩ :=
    ⟨rfl, same.later.keyOf, same.later.isDone, same.later.kept, same.later.new, same.later.won,
      same.later.entries⟩
  refine sound.marks_step threads ?_ ?_ ?_ rfl same.entries same.later.isDone ?_ (by simp [stage])
  · refine ⟨world.entries, world.done, ?_, world.dated, world.started, world.future⟩
    intro rt' x wrote
    simp only [Function.update_apply] at wrote
    split_ifs at wrote with here
    · rw [here, ← Option.some.inj wrote]
      exact ⟨won, Nat.lt_succ_self _⟩
    · exact world.past rt' x wrote
  · rw [tag]
    exact ⟨rfl, rfl, holds.later later, same.later.isDone rt (sound.world.done rt won)⟩
  · intro u other
    refine ⟨later, fun _ _ => ⟨rfl, rfl⟩, fun _ _ => id, ?_, ?_⟩
    · intro rt' theirs unwritten'
      have distinct : rt' ≠ rt := by
        rintro rfl
        exact sound.other_token threads (stage ▸ List.mem_singleton_self _) other theirs
      exact (Function.update_of_ne distinct _ _).trans unwritten'
    · -- A revert that somebody has an eye on has written already.
      intro began covers bound _ _ _ quiet rt' r key' registered covered before wins
      obtain ⟨x, wrote, early⟩ := quiet rt' r key' registered covered before wins
      have distinct : rt' ≠ rt := by
        rintro rfl
        exact nomatch unwritten.symm.trans wrote
      exact ⟨x, (Function.update_of_ne distinct _ _).trans wrote, early⟩
  · exact List.nil_sublist _

theorem Sound.newTimer_step {delay : Int} (stage : t.seen = .post key .written)
    (served : pool.shared.serve t.tag (.newTimer key delay) choice = some (w', rt)) :
    pool.Moves front back t w' (.post key (.made rt)) := by
  have fits := sound.fits_at threads
  rw [stage] at fits
  obtain ⟨began, tag, earlier, written⟩ := fits.post
  obtain ⟨place, length, keyed, entries, started, registered, calm⟩ := serve_newTimer served
  have placed : ∀ i x, pool.shared.history.registered i = some x → i < rt := by
    intro i x known
    rw [place]
    exact (sound.world.dated i x known).2
  refine ⟨?_, ?_, fun u _ => calm.spares
    fun _ _ unregistered => by rw [registered]; exact unregistered, ?_, ?_⟩
  · refine sound.world.calm calm (by rw [entries]; exact fun _ _ => .inl)
      (by rw [started]; exact fun _ => .inl) ?_
    intro i x known
    rw [registered] at known
    have below := placed i x known
    omega
  · rw [tag]
    refine ⟨rfl, calm.clock ▸ Nat.lt_succ_of_lt earlier, Wrote.calm written calm earlier, ?_,
      keyed⟩
    rw [registered, Option.eq_none_iff_forall_ne_some]
    exact fun x known => absurd (placed rt x known) (lt_irrefl _)
  · have once := sound.once
    rw [threads] at once
    refine @Pool.tokens_fresh _ _ _ _ _ _ _ _ _ _ once (.make rt) ?_ ?_
    · -- Whatever others have made has a place in the list.
      intro mem
      obtain ⟨u, inside, theirs⟩ := List.mem_flatMap.mp mem
      have fits := sound.fits u (threads ▸ inside)
      rcases List.mem_append.mp theirs with made | call
      · match seen : u.seen, made with
        | .post key' (.made i), made =>
          rw [seen] at fits
          obtain ⟨_, _, _, _, _, keyed⟩ := fits.post
          obtain rfl := RevertToken.make.inj (List.mem_singleton.mp made)
          have below := keyOf_lt keyed
          omega
        | .revert key' i .won, made => exact nomatch List.mem_singleton.mp made
      · cases tag' : u.tag <;> simp [tag', Party.tokens] at call
    · rw [RevertThread.tokens, RevertThread.tokens, stage]
      exact .refl _
  · intro i key' holds
    rw [Holds, registered] at holds
    rw [entries]
    rcases sound.pending_split threads holds with done | entry | raising | others
    · exact .inl (calm.isDone i done)
    · exact .inr (.inl entry)
    · simp [stage] at raising
    · exact .inr (.inr (.inr others))

theorem Sound.swap_step {old : Option Nat} (stage : t.seen = .post key (.made rt))
    (served : pool.shared.serve t.tag (.swap key rt) choice = some (w', old)) :
    pool.Moves front back t w' (.post key (.swapped rt old)) := by
  have fits := sound.fits_at threads
  rw [stage] at fits
  obtain ⟨began, tag, earlier, written, unregistered, keyed⟩ := fits.post
  obtain ⟨inner, history⟩ := serve_eq served
  obtain ⟨store, rfl⟩ := Prod.mk.inj (Option.some.inj inner)
  have registers : w'.history.registered =
      Function.update pool.shared.history.registered rt
        (some (pool.shared.history.clock, key)) := by rw [history]; rfl
  have enters : w'.store.entries = Function.update pool.shared.store.entries key (some rt) := by
    rw [← store]
  have timers : w'.store.timers = pool.shared.store.timers := by rw [← store]
  have here : w'.history.registered rt = some (pool.shared.history.clock, key) := by
    rw [registers, Function.update_self]
  have entered : ∀ {key' rt'}, w'.store.entries key' = some rt' →
      key' = key ∧ rt' = rt ∨ key' ≠ key ∧ pool.shared.store.entries key' = some rt' := by
    intro key' rt' entry
    rw [enters, Function.update_apply] at entry
    split_ifs at entry with same
    · exact .inl ⟨same, (Option.some.inj entry).symm⟩
    · exact .inr ⟨same, entry⟩
  have calm : Calm pool.shared w' := by
    refine ⟨⟨by rw [history]; rfl, ?_, ?_, ?_, ?_, ?_, ?_⟩, ?_, ?_, ?_, ?_⟩
    · intro i key' keyed
      rw [keyOf, timers]
      exact keyed
    · intro i done
      rw [isDone, timers]
      exact done
    · intro i x known
      have other : i ≠ rt := by
        rintro rfl
        cases unregistered.symm.trans known
      rw [registers, Function.update_of_ne other]
      exact known
    · intro i x known
      rw [registers, Function.update_apply] at known
      split_ifs at known with same
      · exact .inr (by rw [← Option.some.inj known])
      · exact .inl known
    · rw [history]
      exact fun _ => id
    · intro key' i entry
      obtain ⟨rfl, rfl⟩ | ⟨-, before⟩ := entered entry
      · exact .inr here
      · exact .inl before
    all_goals
      rw [history]
      rfl
  refine ⟨?_, ?_, ?_, ?_, ?_⟩
  · refine sound.world.calm calm ?_ (by rw [← store]; exact fun _ => .inl) ?_
    · intro key' i entry
      obtain ⟨rfl, rfl⟩ | ⟨-, before⟩ := entered entry
      · exact .inr ⟨calm.keyOf _ _ keyed, _, here⟩
      · exact .inl before
    · intro i x known
      rw [timers]
      rw [registers, Function.update_apply] at known
      split_ifs at known with same
      · rw [same]
        exact keyOf_lt keyed
      · exact (sound.world.dated i x known).2
  · rw [tag]
    refine ⟨rfl, calm.clock ▸ Nat.lt_succ_of_lt earlier, written.calm calm earlier, ?_,
      ⟨_, here⟩, ?_⟩
    · intro key' i same entry
      obtain ⟨rfl, rfl⟩ | ⟨other, -⟩ := entered entry
      · exact ⟨_, here, earlier⟩
      · exact absurd same other
    · intro o before
      exact (sound.world.entries key o before).2.later calm.toLater
  · intro u other
    refine calm.spares fun i theirs unregistered' => ?_
    have distinct : i ≠ rt := by
      rintro rfl
      exact sound.other_token threads (by rw [stage]; exact List.mem_singleton_self _) other theirs
    rw [registers, Function.update_of_ne distinct]
    exact unregistered'
  · have once := sound.once
    rw [threads] at once
    refine Pool.tokens_sublist once ?_
    exact (List.nil_sublist _).append_right _
  · rintro i key' ⟨r, known⟩
    rw [registers, Function.update_apply] at known
    split_ifs at known with same
    · -- The new revert is in the map.
      obtain ⟨-, rfl⟩ := Prod.mk.inj (Option.some.inj known)
      rw [same, enters, Function.update_self]
      exact .inr (.inl rfl)
    · rcases sound.pending_split threads ⟨r, known⟩ with done | entry | raising | others
      · exact .inl (calm.isDone i done)
      · by_cases mine : key' = key
        · -- The revert that was there is the one to be flagged.
          subst mine
          exact .inr (.inr (.inl ⟨rt, by rw [entry]⟩))
        · rw [enters, Function.update_of_ne mine]
          exact .inr (.inl entry)
      · simp [stage] at raising
      · exact .inr (.inr (.inr others))

theorem Sound.storeDone_step {reply : Unit} (may : t.seen.mayStoreDone rt)
    (served : pool.shared.serve t.tag (.storeDone rt) choice = some (w', reply)) :
    pool.Moves front back t w' t.seen.storesDone := by
  have fits := sound.fits_at threads
  obtain ⟨same, raised⟩ := serve_storeDone served
  have up : ∀ {key}, pool.shared.Holds rt key → w'.isDone rt = true := fun ⟨r, known⟩ =>
    raised (sound.world.dated rt _ known).2
  have clock : w'.history.clock = pool.shared.history.clock + 1 := by rw [same.history]
  cases stage : t.seen with
  | post key p =>
    rw [stage] at may fits
    obtain ⟨own, rfl⟩ := may
    obtain ⟨began, tag, earlier, written, renewed, holds, older⟩ := fits.post
    refine sound.same_step threads same ?_ (by rw [stage]; rfl) ?_
    · rw [tag]
      exact ⟨rfl, clock ▸ Nat.lt_succ_of_lt earlier, written.calm same.calm earlier,
        renewed.later same.later earlier, holds.later same.later, nofun⟩
    · rintro key' i ⟨own', is⟩
      rw [stage] at is
      obtain ⟨-, swapped⟩ := RevertStage.post.inj is
      obtain ⟨-, here⟩ := Posting.swapped.inj swapped
      rw [← Option.some.inj here]
      exact .inr (up (older rt rfl))
  | revert key i g =>
    rw [stage] at may fits
    obtain ⟨rfl, rfl⟩ := may
    obtain ⟨tag, holds, -⟩ := fits.revert
    refine sound.same_step threads same ?_ (by rw [stage]; rfl) (by simp [stage])
    rw [tag]
    exact ⟨rfl, rfl, holds.later same.later, up holds⟩
  | cancel ip c =>
    rw [stage] at may fits
    obtain ⟨key, keys, rfl⟩ := may
    obtain ⟨began, tag, earlier, renewed, holds, replaced⟩ := fits.cancel
    refine sound.same_step threads same ?_ (by rw [stage]; rfl) (by simp [stage])
    rw [tag]
    exact ⟨rfl, clock ▸ Nat.lt_succ_of_lt earlier, renewed.later same.later earlier,
      holds.later same.later, replaced.later same.later earlier, up holds⟩

theorem Sound.won_step (stage : t.seen = .revert key rt .waiting)
    (alone : pool.shared.isDone rt = false → pool.inside key = false)
    (served : pool.shared.serve t.tag (.compareAndSwap rt) choice = some (w', true)) :
    pool.Moves front back t w' (.revert key rt .won) := by
  have fits := sound.fits_at threads
  rw [stage] at fits
  obtain ⟨tag, holds, -⟩ := fits.revert
  obtain ⟨down, up, store, history, same⟩ := serve_won served
  have outside := alone down
  have world := sound.world.same same
  have unwritten : pool.shared.history.wrote rt = none := by
    rw [Option.eq_none_iff_forall_ne_some]
    intro x wrote
    exact nomatch down.symm.trans (sound.world.done rt (sound.world.past rt x wrote).1)
  have wins : ∀ i, w'.history.won i = true ↔ i = rt ∨ pool.shared.history.won i = true := by
    intro i
    rw [history]
    change Function.update pool.shared.history.won rt true i = true ↔ _
    rw [Function.update_apply]
    split_ifs with here <;> simp [here]
  have later : Later pool.shared w' := by
    refine ⟨by rw [history], by rw [history]; exact same.later.keyOf,
      by rw [history]; exact same.isDone, by rw [history]; exact same.later.kept,
      by rw [history]; exact same.later.new, fun i won => (wins i).mpr (.inr won),
      by rw [history]; exact same.later.entries⟩
  refine ⟨?_, ?_, ?_, ?_, ?_⟩
  · subst history
    refine ⟨world.entries, ?_, ?_, world.dated, world.started, world.future⟩
    · intro i won
      rcases (wins i).mp won with rfl | before
      · exact up
      · exact world.done i before
    · intro i x wrote
      exact ⟨(wins i).mpr (.inr (world.past i x wrote).1), (world.past i x wrote).2⟩
  · rw [tag]
    refine ⟨rfl, rfl, holds.later later, (wins rt).mpr (.inl rfl), ?_⟩
    rw [history]
    exact unwritten
  · intro u other
    have mem := mem_threads threads other
    refine ⟨later, by rw [history]; exact fun _ _ => ⟨rfl, rfl⟩,
      by rw [history]; exact fun _ _ => id, by rw [history]; exact fun _ _ => id, ?_⟩
    intro began covers bound call earlier watches quiet i r key' known covered before won
    have registered : pool.shared.history.registered i = some (r, key') := by
      rw [history] at known
      exact known
    have wrote : w'.history.wrote = pool.shared.history.wrote := by rw [history]
    rw [wrote]
    rcases (wins i).mp won with rfl | already
    · -- The winner is newer than the call.
      obtain ⟨r', held⟩ := holds
      obtain ⟨rfl, rfl⟩ := Prod.mk.inj (Option.some.inj (held.symm.trans registered))
      have after := sound.winner_is_newer held down outside mem watches covered call
      omega
    · exact quiet i r key' registered covered before already
  · have once := sound.once
    rw [threads] at once
    refine @Pool.tokens_fresh _ _ _ _ _ _ _ _ _ _ once (.fire rt) ?_ ?_
    · -- Whoever has won has raised the flag.
      intro mem
      obtain ⟨u, inside, theirs⟩ := List.mem_flatMap.mp mem
      have fits := sound.fits u (threads ▸ inside)
      rcases List.mem_append.mp theirs with fire | call
      · match seen : u.seen, fire with
        | .post key' (.made i), fire => exact nomatch List.mem_singleton.mp fire
        | .revert key' i .won, fire =>
          rw [seen] at fits
          obtain ⟨-, -, won, -⟩ := fits.revert
          obtain rfl := RevertToken.fire.inj (List.mem_singleton.mp fire)
          exact nomatch down.symm.trans (sound.world.done rt won)
      · cases tag' : u.tag <;> simp [tag', Party.tokens] at call
    · rw [RevertThread.tokens, RevertThread.tokens, stage]
      exact .refl _
  · intro i key' holds'
    have held : pool.shared.Holds i key' := by
      rw [Holds, history] at holds'
      exact holds'
    have entries : w'.store.entries = pool.shared.store.entries := by
      rw [history]
      exact same.entries
    rw [entries]
    rcases sound.pending_split threads held with done | entry | raising | others
    · exact .inl (later.isDone i done)
    · exact .inr (.inl entry)
    · simp [stage] at raising
    · exact .inr (.inr (.inr others))

theorem Sound.lost_step (stage : t.seen = .revert key rt .waiting)
    (served : pool.shared.serve t.tag (.compareAndSwap rt) choice = some (w', false)) :
    pool.Moves front back t w' (.revert key rt .finished) := by
  have fits := sound.fits_at threads
  rw [stage] at fits
  obtain ⟨tag, holds, -⟩ := fits.revert
  obtain ⟨same, up⟩ := serve_lost served
  refine sound.same_step threads same ?_ (by rw [stage]; rfl) (by simp [stage])
  rw [tag]
  exact ⟨rfl, rfl, holds.later same.later, same.isDone rt up⟩

theorem Sound.compareAndDelete_step {reply : Unit} (may : t.seen.mayDelete key rt)
    (served : pool.shared.serve t.tag (.compareAndDelete key rt) choice = some (w', reply)) :
    pool.Moves front back t w' t.seen.deletes := by
  have fits := sound.fits_at threads
  obtain ⟨timers, started, history, left, deleted⟩ := serve_compareAndDelete served
  have registered : w'.history.registered = pool.shared.history.registered := by rw [history]
  have isDone : ∀ i, pool.shared.isDone i = true → w'.isDone i = true := by
    intro i done
    rw [RevertWorld.isDone, timers]
    exact done
  have calm : Calm pool.shared w' := by
    refine ⟨⟨by rw [history], ?_, isDone, by rw [history]; exact fun _ _ => id,
      by rw [history]; exact fun _ _ => .inl, by rw [history]; exact fun _ => id,
      fun key' i entry => .inl (left key' i entry).1⟩, ?_, ?_, ?_, ?_⟩
    · intro i key' keyed
      rw [keyOf, timers]
      exact keyed
    all_goals rw [history]
  have clock := calm.clock
  -- The deleted revert is done, and the thread goes on where it should.
  have own : pool.shared.isDone rt = true ∧ w'.Fits t.tag t.seen.deletes ∧
      t.seen.deletes.tokens = t.seen.tokens ∧ ∀ key' i, ¬ t.seen.Raises key' i := by
    cases stage : t.seen with
    | post =>
      rw [stage] at may
      exact may.elim
    | revert key' i g =>
      rw [stage] at may fits
      obtain ⟨rfl, rfl, rfl⟩ := may
      obtain ⟨tag, holds, done⟩ := fits.revert
      rw [tag]
      refine ⟨done, ⟨rfl, rfl, holds.later calm.toLater, isDone _ done⟩, rfl, ?_⟩
      rintro _ _ ⟨_, is⟩
      cases is
    | cancel ip c =>
      rw [stage] at may fits
      obtain ⟨keys, rfl⟩ := may
      obtain ⟨began, tag, earlier, renewed, holds, replaced, done⟩ := fits.cancel
      rw [tag]
      refine ⟨done, ⟨rfl, clock ▸ Nat.lt_succ_of_lt earlier, ?_⟩, rfl, ?_⟩
      · rintro k i ⟨mine, unlisted⟩ entry
        obtain ⟨before, other⟩ := left k i entry
        by_cases here : k = key
        · subst here
          rcases replaced i before with same | ⟨r, known, after⟩
          · exact absurd ⟨rfl, same⟩ other
          · exact ⟨r, calm.kept i _ known, after⟩
        · obtain ⟨r, known, after⟩ := renewed k i ⟨mine, by simp [here, unlisted]⟩ before
          exact ⟨r, calm.kept i _ known, after⟩
      · rintro _ _ ⟨_, is⟩
        cases is
  obtain ⟨done, fits', tokens, raises⟩ := own
  refine ⟨?_, fits', ?_, ?_, ?_⟩
  · refine sound.world.calm calm (fun key' i entry => .inl (left key' i entry).1)
      (by rw [started]; exact fun _ => .inl) ?_
    intro i x known
    rw [registered] at known
    rw [timers]
    exact (sound.world.dated i x known).2
  · intro u _
    exact calm.spares fun _ _ unregistered => by rw [registered]; exact unregistered
  · have once := sound.once
    rw [threads] at once
    refine Pool.tokens_sublist once ?_
    rw [RevertThread.tokens, RevertThread.tokens, tokens]
  · intro i key' holds
    rw [Holds, registered] at holds
    rcases sound.pending_split threads holds with up | entry | raising | others
    · exact .inl (isDone i up)
    · rcases deleted key' i entry with still | rfl
      · exact .inr (.inl still)
      · exact .inl (isDone i done)
    · exact absurd raising (raises key' i)
    · exact .inr (.inr (.inr others))

theorem Sound.returns_step {reply : Unit} (may : t.seen.mayReturn)
    (calm : ∀ began ip, t.tag = .cancel began ip →
      pool.shared.firing (fun k => k.ip = ip) = false)
    (served : pool.shared.serve t.tag .returns choice = some (w', reply)) :
    pool.Moves front back t w' t.seen.returns := by
  have fits := sound.fits_at threads
  have same : Same pool.shared ⟨pool.shared.store,
      { pool.shared.history with clock := pool.shared.history.clock + 1 }⟩ :=
    ⟨rfl, fun _ => .inl, rfl, rfl, fun _ => id, rfl⟩
  cases stage : t.seen with
  | post key p =>
    rw [stage] at may fits
    obtain ⟨began, tag, earlier, fits⟩ := fits.post
    have mine : RevertToken.call began ∈ t.tag.tokens := by rw [tag]; exact List.mem_cons_self
    rw [tag] at served
    have marked := serve_returns served rfl
    refine sound.call_step threads mine earlier same (fun _ _ => rfl)
      (fun b other => Function.update_of_ne other _ _) marked (fun later => ?_) ?_ ?_
    · rw [tag]
      have further : began < w'.history.clock := by
        rw [later.clock]
        exact Nat.lt_succ_of_lt earlier
      rcases may with rfl | rfl | ⟨own, rfl⟩
      · exact ⟨rfl, further, nofun⟩
      · exact ⟨rfl, further, nofun⟩
      · obtain ⟨⟨-, m, mutated, quiet⟩, renewed, -, -⟩ := fits
        refine ⟨rfl, further, fun _ => ⟨⟨m, ?_, ?_⟩, renewed.later later earlier⟩⟩
        · rw [marked]
          exact mutated
        · exact quiet.later later (by rw [marked]) (by rw [marked]) earlier
    · rw [stage]
      rcases may with rfl | rfl | ⟨own, rfl⟩ <;> exact List.nil_sublist _
    · rintro key' i ⟨own, is⟩
      rw [stage] at is
      obtain ⟨-, swapped⟩ := RevertStage.post.inj is
      rcases may with rfl | rfl | ⟨own, rfl⟩ <;> exact nomatch swapped
  | revert =>
    rw [stage] at may
    exact may.elim
  | cancel ip c =>
    rw [stage] at may fits
    obtain ⟨began, tag, earlier, fits⟩ := fits.cancel
    have mine : RevertToken.call began ∈ t.tag.tokens := by rw [tag]; exact List.mem_cons_self
    obtain rfl : c = .visiting [] := may
    have quiet := quiet_of_not_firing sound.world began (calm began ip tag)
    simp only [decide_eq_true_eq] at quiet
    rw [tag] at served
    have marked := serve_returns served rfl
    refine sound.call_step threads mine earlier same (fun _ _ => rfl)
      (fun b other => Function.update_of_ne other _ _) marked (fun later => ?_)
      (by rw [stage]; exact List.nil_sublist _) (by simp [stage])
    · rw [tag]
      refine ⟨rfl, later.clock ▸ Nat.lt_succ_of_lt earlier,
        ⟨pool.shared.history.clock, ?_, ?_⟩, ?_⟩
      · rw [marked]
        exact Function.update_self _ _ _
      · exact quiet.later later (by rw [marked]) (by rw [marked]) earlier
      · have renewed := Renewed.later fits later earlier
        intro key rt mine entry
        exact renewed key rt ⟨mine, List.not_mem_nil⟩ entry

theorem Sound.write_step (writes : op.isWrite = true) (may : t.seen.mayMutate)
    (calm : ∀ began key, t.tag = .post began key →
      pool.shared.firing (fun k => k = key) = false)
    (served : pool.shared.serve t.tag op choice = some (w', reply)) :
    pool.Moves front back t w' t.seen.mutates := by
  have fits := sound.fits_at threads
  obtain ⟨store, same, written⟩ := serve_write writes served
  cases stage : t.seen with
  | post key p =>
    rw [stage] at may fits
    obtain rfl : p = .fresh := may
    obtain ⟨began, tag, -, -⟩ := fits.post
    rw [tag] at written
    exact sound.post_writes threads stage tag same (calm began key tag) written
  | revert key rt g =>
    rw [stage] at may fits
    obtain rfl : g = .won := may
    rw [fits.revert.1] at written
    exact sound.revert_writes threads stage same written
  | cancel =>
    rw [stage] at may
    exact may.elim

end Requests

theorem Sound.advance_step {next : RevertPool} {index : Nat} {choice : IfStateChoice}
    (sound : pool.Sound)
    (outside : pool.crosses (.advance index choice) = false)
    (advances : pool.advance revertStages RevertWorld.serve index choice = some next) :
    next.Sound := by
  have follows := sound.follows.advance advances
  obtain ⟨front, t, back, op, resume, w', reply, threads, position, asks, served, rfl⟩ :=
    Pool.advance_cases advances
  have permitted : revertStages.permits t.seen op := by
    have keeps := sound.follows t (threads ▸ List.mem_append_right _ List.mem_cons_self)
    rw [asks] at keeps
    exact keeps.1
  have found : pool.threads[index]? = some t := by
    rw [threads, ← position, List.getElem?_append_right le_rfl, Nat.sub_self]
    rfl
  have fits := sound.fits_at threads
  obtain ⟨tag, seen, rest⟩ := t
  simp only at asks permitted fits
  subst asks
  simp only [crosses, found] at outside
  refine sound.exchange threads ?_ follows
  cases op with
  | findDevice | snapshot | broadcast | addCount | stopTimer | closeStop | select | finish =>
    exact sound.idle_step threads (serve_idle rfl served)
  | setLinkState | applyAdminStatus =>
    refine sound.write_step threads rfl permitted ?_ served
    rintro began key rfl
    exact outside
  | newTimer => exact sound.newTimer_step threads permitted served
  | swap => exact sound.swap_step threads permitted served
  | start key rt revertTo =>
    subst permitted
    obtain ⟨began, -, -, -, -, holds, -⟩ := fits.post
    exact sound.idle_step threads (serve_start holds served)
  | storeDone => exact sound.storeDone_step threads permitted served
  | compareAndSwap rt =>
    obtain ⟨key, rfl⟩ := permitted
    obtain ⟨rfl, -⟩ := fits.revert
    cases reply with
    | true =>
      refine sound.won_step threads rfl (fun down => ?_) served
      simpa [down] using outside
    | false => exact sound.lost_step threads rfl served
  | compareAndDelete => exact sound.compareAndDelete_step threads permitted served
  | range =>
    obtain ⟨ip, rfl⟩ := permitted
    exact sound.range_step threads rfl served
  | load key =>
    obtain ⟨ip, keys, rfl⟩ := permitted
    exact sound.load_step threads rfl served
  | returns =>
    refine sound.returns_step threads permitted ?_ served
    rintro began ip rfl
    exact outside

/-! ### Runs -/

theorem Sound.tick (sound : pool.Sound) : pool.tick.Sound := by
  have same : Same pool.shared pool.tick.shared :=
    ⟨rfl, fun _ => .inl, rfl, rfl, fun _ => id, rfl⟩
  exact ⟨sound.world.same same, sound.follows,
    fun t mem => (sound.fits t mem).spared (same.spares _ _), sound.once, sound.pending⟩

theorem Sound.takeUp (sound : pool.Sound) (index : Nat) : (pool.takeUp index).Sound where
  world :=
    { sound.world with
      started := fun e mem => sound.world.started e (List.mem_of_mem_eraseIdx mem) }
  follows := sound.follows
  fits := sound.fits
  once := sound.once
  pending := sound.pending

theorem Sound.spawn {tag : Party} {seen : RevertStage} (sound : pool.Sound)
    (keeps : Keeps revertStages seen program EndsAs) (fits : pool.shared.Fits tag seen)
    (once : ((pool.spawn tag seen program).threads.flatMap RevertThread.tokens).Nodup) :
    Sound (pool.spawn tag seen program) where
  world := sound.world
  follows := sound.follows.spawn keeps
  fits := by
    intro u mem
    rcases List.mem_append.mp mem with old | new
    · exact sound.fits u old
    · rw [List.mem_singleton.mp new]
      exact fits
  once := once
  pending := by
    intro rt key holds
    rcases sound.pending rt key holds with done | entry | ⟨u, mem, raises⟩
    · exact .inl done
    · exact .inr (.inl entry)
    · exact .inr (.inr ⟨u, List.mem_append_left _ mem, raises⟩)

theorem Sound.call_once {tag : Party} {seen : RevertStage} (sound : pool.Sound)
    (call : tag.tokens = [.call pool.shared.history.clock]) (nothing : seen.tokens = []) :
    ((pool.tick.spawn tag seen program).threads.flatMap RevertThread.tokens).Nodup := by
  have tokens : (pool.tick.spawn tag seen program).threads.flatMap RevertThread.tokens =
      pool.threads.flatMap RevertThread.tokens ++ [.call pool.shared.history.clock] := by
    simp [Pool.spawn, RevertPool.tick, RevertThread.tokens, call, nothing]
  rw [tokens]
  refine List.Nodup.append sound.once (List.nodup_singleton _) ?_
  rw [List.disjoint_singleton]
  intro mem
  obtain ⟨u, inside, theirs⟩ := List.mem_flatMap.mp mem
  have fits := sound.fits u inside
  rcases List.mem_append.mp theirs with held | own
  · match seen : u.seen, held with
    | .post key' (.made i), held => exact nomatch List.mem_singleton.mp held
    | .revert key' i .won, held => exact nomatch List.mem_singleton.mp held
  · -- Every call has begun before.
    have earlier : ∀ {began}, RevertToken.call pool.shared.history.clock ∈ [.call began] →
        ¬ began < pool.shared.history.clock := by
      intro began same before
      have here := RevertToken.call.inj (List.mem_singleton.mp same)
      omega
    cases stage : u.seen with
    | post key p =>
      rw [stage] at fits
      obtain ⟨began, tag, before, -⟩ := fits.post
      rw [tag] at own
      exact earlier own before
    | revert key i g =>
      rw [stage] at fits
      rw [fits.revert.1] at own
      exact nomatch own
    | cancel ip c =>
      rw [stage] at fits
      obtain ⟨began, tag, before, -⟩ := fits.cancel
      rw [tag] at own
      exact earlier own before

/-- **Steps.** -/
theorem Sound.sound_step {next : RevertPool} {action : RevertAction} (sound : pool.Sound)
    (outside : pool.crosses action = false) (steps : pool.step action = some next) :
    next.Sound := by
  have future := sound.world.future _ le_rfl
  cases action with
  | post key target revertAfter =>
    cases steps
    exact sound.tick.spawn (IfStating.post_keeps key target revertAfter)
      ⟨rfl, Nat.lt_succ_self _, future⟩ (sound.call_once rfl rfl)
  | cancel ip =>
    cases steps
    exact sound.tick.spawn (IfStating.cancel_keeps ip) ⟨rfl, Nat.lt_succ_self _, trivial⟩
      (sound.call_once rfl rfl)
  | launch index =>
    simp only [step] at steps
    split at steps
    · exact nomatch steps
    · next key rt revertTo found =>
        cases steps
        refine (sound.takeUp index).spawn (IfStating.revert_keeps key rt revertTo)
          ⟨rfl, rfl, ?_, trivial⟩ ?_
        · exact sound.world.started _ (List.mem_of_getElem? found)
        · simpa [Pool.spawn, RevertPool.takeUp, RevertThread.tokens, RevertStage.tokens,
            Party.tokens] using sound.once
  | advance index choice => exact sound.advance_step outside steps

/-- A manager with no reverts yet, whatever its devices and their state. -/
def initial (devices : String → Option ApiDevice) (engines : String → InterfaceState) :
    RevertPool where
  shared := {
    store := {
      devices := devices
      engines := engines
      counts := fun _ => 0
      entries := fun _ => none
      timers := []
      started := []
      broadcasts := [] }
    history := {
      clock := 0
      registered := fun _ => none
      won := fun _ => false
      wrote := fun _ => none
      mutated := fun _ => none
      returned := fun _ => none } }
  threads := []

theorem initial_sound (devices : String → Option ApiDevice) (engines : String → InterfaceState) :
    (initial devices engines).Sound where
  world := ⟨nofun, nofun, nofun, nofun, nofun, fun _ _ => ⟨rfl, rfl⟩⟩
  follows := nofun
  fits := nofun
  once := List.nodup_nil
  pending := by
    rintro rt key ⟨r, registered⟩
    exact nomatch registered

/-- What a thread that has returned leaves behind. -/
theorem Sound.ends (sound : pool.Sound) (mem : t ∈ pool.threads) {result : CallResult}
    (returned : t.result = some result) : EndsAs t.seen result := by
  have keeps := sound.follows t mem
  obtain ⟨tag, seen, rest⟩ := t
  cases rest with
  | ret out =>
    cases returned
    exact keeps
  | ask => exact nomatch returned

/-- **Superseded reverts.** In a run that falls into neither window, a revert that was registered
for a leaf before a timed request on the leaf began has written before the request did, if it has
written at all, as soon as the request has returned without an error; and a revert that was
registered for a device before a cancellation began has written before the cancellation returned. -/
theorem superseded_reverts (devices : String → Option ApiDevice)
    (engines : String → InterfaceState) {actions : List RevertAction} {last : RevertPool}
    (outside : Runs.Along step (fun pool action => pool.crosses action = false)
      (initial devices engines) actions)
    (runs : Runs.run step (initial devices engines) actions = some last) :
    (∀ t ∈ last.threads, ∀ began key, t.tag = .post began key → t.result = some ⟨true, none⟩ →
      ∀ rt r x, last.shared.history.registered rt = some (r, key) → r < began →
        last.shared.history.wrote rt = some x →
          ∃ m, last.shared.history.mutated began = some m ∧ x < m) ∧
    ∀ t ∈ last.threads, ∀ began ip result, t.tag = .cancel began ip → t.result = some result →
      ∀ rt r key x, last.shared.history.registered rt = some (r, key) → key.ip = ip → r < began →
        last.shared.history.wrote rt = some x →
          ∃ e, last.shared.history.returned began = some e ∧ x < e := by
  have sound : last.Sound :=
    Runs.invariant (fun _ _ _ sound outside steps => sound.sound_step outside steps)
      (initial_sound devices engines) outside runs
  have early : ∀ {covers began bound rt r key x}, last.shared.Quiet covers began bound →
      last.shared.history.registered rt = some (r, key) → covers key → r < began →
        last.shared.history.wrote rt = some x → x < bound := by
    intro covers began bound rt r key x quiet registered covered before wrote
    obtain ⟨x', wrote', early⟩ :=
      quiet rt r key registered covered before (sound.world.past rt x wrote).1
    obtain rfl := Option.some.inj (wrote.symm.trans wrote')
    exact early
  constructor
  · intro t mem began key tag returned rt r x registered before wrote
    have fits := sound.fits t mem
    have ends := sound.ends mem returned
    rw [tag] at fits
    cases stage : t.seen with
    | post key' p =>
      rw [stage] at fits ends
      obtain ⟨rfl, -, fits⟩ := fits
      obtain ⟨closed, rfl, superseded⟩ := ends
      obtain ⟨⟨m, mutated, quiet⟩, -⟩ := fits (superseded rfl rfl)
      exact ⟨m, mutated, early quiet registered rfl before wrote⟩
    | revert =>
      rw [stage] at fits
      exact fits.elim
    | cancel =>
      rw [stage] at fits
      exact fits.elim
  · intro t mem began ip result tag returned rt r key x registered here before wrote
    have fits := sound.fits t mem
    have ends := sound.ends mem returned
    rw [tag] at fits
    cases stage : t.seen with
    | cancel ip' c =>
      rw [stage] at fits ends
      obtain ⟨rfl, -, fits⟩ := fits
      obtain rfl : c = .returned := ends
      obtain ⟨⟨e, ended, quiet⟩, -⟩ := fits
      exact ⟨e, ended, early quiet registered here before wrote⟩
    | revert =>
      rw [stage] at fits
      exact fits.elim
    | post =>
      rw [stage] at fits
      exact fits.elim

def oneLink : RevertKey := ⟨"10.0.0.1", 1, true⟩

/-- A thread makes several requests in a row. -/
def advances (index n now : Nat) : List RevertAction :=
  List.replicate n (.advance index ⟨now, true, [oneLink]⟩)

/-- A timed request, then its revert, then a second request that finds nothing to supersede. -/
def inSequence : List RevertAction :=
  .post oneLink 2 1 :: advances 0 10 5 ++ .launch 0 :: advances 1 7 9 ++
    .post oneLink 3 1 :: advances 2 10 9

/-- The second request is made and returns after the goroutine of the first has won its flag and
before it writes. -/
def inTheWindow : List RevertAction :=
  .post oneLink 2 1 :: advances 0 10 5 ++ .launch 0 :: advances 1 2 9 ++
    .post oneLink 3 1 :: advances 2 13 9 ++ advances 1 1 9

theorem superseded_reverts_inSequence :
    ∃ last, Runs.run step (initial (IfStateStore.oneInterface 0).devices
        (IfStateStore.oneInterface 0).engines) inSequence = some last ∧
      last.shared.history.wrote 0 = some 13 ∧
      ∃ m, last.shared.history.mutated 18 = some m ∧ 13 < m := by
  obtain ⟨last, runs, found, registered, wrote⟩ : ∃ last,
      Runs.run step (initial (IfStateStore.oneInterface 0).devices
        (IfStateStore.oneInterface 0).engines) inSequence = some last ∧
      last.threads[2]?.map (fun t => (t.tag, t.result)) =
        some (.post 18 oneLink, some ⟨true, none⟩) ∧
      last.shared.history.registered 0 = some (8, oneLink) ∧
      last.shared.history.wrote 0 = some 13 := ⟨_, rfl, rfl, rfl, rfl⟩
  obtain ⟨t, here, is⟩ := Option.map_eq_some_iff.mp found
  obtain ⟨tag, returned⟩ := Prod.mk.inj is
  refine ⟨last, runs, wrote, ?_⟩
  exact (superseded_reverts _ _ (by decide +kernel) runs).1 t (List.mem_of_getElem? here) 18 oneLink
    tag returned 0 8 13 registered (by decide) wrote

/-- **A superseded revert that writes.** The second request has set the link to testing and returned
at time 26; the revert that was registered at time 8, before the request began, sets it back to up at
time 27. -/
theorem superseded_revert_writes :
    ∃ last t, Runs.run step (initial (IfStateStore.oneInterface 0).devices
        (IfStateStore.oneInterface 0).engines) inTheWindow = some last ∧
      t ∈ last.threads ∧ t.tag = .post 13 oneLink ∧ t.result = some ⟨true, none⟩ ∧
      last.shared.history.registered 0 = some (8, oneLink) ∧
      last.shared.history.mutated 13 = some 16 ∧ last.shared.history.returned 13 = some 26 ∧
      last.shared.history.wrote 0 = some 27 ∧
      (last.shared.store.engines "10.0.0.1").linkState 1 = operUpStatus :=
  ⟨_, _, rfl, List.mem_of_getElem? (i := 2) rfl, rfl, rfl, rfl, rfl, rfl, rfl, by decide +kernel⟩

end RevertPool

end Nl6
