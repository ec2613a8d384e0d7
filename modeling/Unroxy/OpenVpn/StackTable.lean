import Mathlib.Data.List.Nodup
import Unroxy.OpenVpn.StackLoop

/-!
Owns which socket belongs to which connection in every run of the `run` loop of
`openvpn/stack.rs`, and that no handle of it is ever out of date.

`Table` is about the connections and sockets alone, `Sound` about the loop between
two events.

Does not own what goes through the sockets.
-/

namespace Unroxy.OpenVpn

open Unroxy.Lib

/-- Where a connection has its socket, and which one it is. -/
def Conn.seat (self : Conn) : Nat × Nat := (self.handle, self.link)

namespace StackRun

/-! ### The table of connections -/

/-- Every seat has a socket of its own, whose bytes are those of its connection,
and the connections without a seat are removed. -/
structure Table (sockets : Slab Socket) (links : Arena Connection) (seats : List (Nat × Nat)) :
    Prop where
  handles : (seats.map Prod.fst).Nodup
  distinct : (seats.map Prod.snd).Nodup
  known : ∀ seat ∈ seats, seat.2 < links.size
  live : ∀ seat ∈ seats, (links.get seat.2).stage ≠ .removed
  mirrored : ∀ seat ∈ seats, ∃ socket, sockets.get? seat.1 = some socket ∧
    socket.Mirrors (links.get seat.2)
  forgotten : ∀ link < links.size, link ∉ seats.map Prod.snd → (links.get link).stage = .removed

namespace Table

variable {sockets : Slab Socket} {links : Arena Connection} {seats : List (Nat × Nat)}

theorem perm {others : List (Nat × Nat)} (table : Table sockets links seats)
    (same : seats.Perm others) : Table sockets links others where
  handles := (same.map _).nodup_iff.mp table.handles
  distinct := (same.map _).nodup_iff.mp table.distinct
  known seat among := table.known seat (same.mem_iff.mpr among)
  live seat among := table.live seat (same.mem_iff.mpr among)
  mirrored seat among := table.mirrored seat (same.mem_iff.mpr among)
  forgotten link inside absent :=
    table.forgotten link inside fun among => absent ((same.map _).mem_iff.mp among)

/-- Two seats with one handle, or with one connection, are the same. -/
theorem seat_eq (table : Table sockets links seats) {seat other : Nat × Nat}
    (among : seat ∈ seats) (amongOther : other ∈ seats)
    (shared : seat.1 = other.1 ∨ seat.2 = other.2) : seat = other := by
  rcases shared with handle | link
  · exact List.inj_on_of_nodup_map table.handles among amongOther handle
  · exact List.inj_on_of_nodup_map table.distinct among amongOther link

/-- Nothing that the table tells of the connections changes. -/
theorem change (table : Table sockets links seats) {after : Arena Connection}
    (size : after.size = links.size)
    (accepted : ∀ link < links.size, (after.get link).accepted = (links.get link).accepted)
    (received : ∀ link < links.size, (after.get link).received = (links.get link).received)
    (removed : ∀ link < links.size,
      ((after.get link).stage = .removed ↔ (links.get link).stage = .removed)) :
    Table sockets after seats where
  handles := table.handles
  distinct := table.distinct
  known seat among := size ▸ table.known seat among
  live seat among gone := table.live seat among ((removed _ (table.known seat among)).mp gone)
  mirrored seat among := by
    obtain ⟨socket, taken, mirrors⟩ := table.mirrored seat among
    have inside := table.known seat among
    exact ⟨socket, taken, mirrors.accepted.trans (accepted _ inside).symm,
      mirrors.received.trans (received _ inside).symm⟩
  forgotten link inside absent := by
    rw [size] at inside
    exact (removed link inside).mpr (table.forgotten link inside absent)

/-- One connection and its socket go on together. -/
theorem serve (table : Table sockets links seats) {seat : Nat × Nat} (among : seat ∈ seats)
    {socket after : Socket} (taken : sockets.get? seat.1 = some socket)
    {change : Connection → Connection} (mirrors : after.Mirrors (change (links.get seat.2)))
    (live : (change (links.get seat.2)).stage ≠ .removed) :
    Table (sockets.replace seat.1 after) (links.modify seat.2 change) seats where
  handles := table.handles
  distinct := table.distinct
  known other amongOther := by
    rw [Arena.size_modify]
    exact table.known other amongOther
  live other amongOther := by
    rw [Arena.get_modify _ _ _ (table.known other amongOther)]
    split
    case isTrue same => rwa [← same]
    case isFalse => exact table.live other amongOther
  mirrored other amongOther := by
    rw [Arena.get_modify _ _ _ (table.known other amongOther)]
    by_cases same : seat.2 = other.2
    · cases table.seat_eq among amongOther (.inr same)
      rw [if_pos rfl]
      exact ⟨after, Slab.get?_replace_self _ taken after, mirrors⟩
    · have elsewhere : other.1 ≠ seat.1 := fun handle =>
        same (congrArg Prod.snd (table.seat_eq among amongOther (.inl handle.symm)))
      rw [if_neg same, Slab.get?_replace_of_ne _ elsewhere]
      exact table.mirrored other amongOther
  forgotten link inside absent := by
    rw [Arena.size_modify] at inside
    have elsewhere : seat.2 ≠ link := by
      intro same
      exact absent (same ▸ List.mem_map_of_mem among)
    rw [Arena.get_modify_of_ne _ _ elsewhere]
    exact table.forgotten link inside absent

/-- A socket is added that no connection has yet. -/
theorem insert (table : Table sockets links seats) (socket : Socket) :
    Table (sockets.insert socket).2 links seats :=
  { table with
    mirrored := by
      intro seat among
      obtain ⟨before, taken, mirrors⟩ := table.mirrored seat among
      have elsewhere : seat.1 ≠ (sockets.insert socket).1 := by
        intro same
        rw [same, Slab.insert_fresh] at taken
        cases taken
      exact ⟨before, by rw [Slab.get?_insert_of_ne _ _ elsewhere, taken], mirrors⟩ }

/-- A connection is opened on a new socket. -/
theorem «open» (table : Table sockets links seats) :
    Table (sockets.insert .new).2 (links.alloc .opened).2
      (seats ++ [((sockets.insert .new).1, links.size)]) := by
  have added := table.insert .new
  have old (link : Nat) (inside : link < links.size) :
      (links.alloc .opened).2.get link = links.get link := links.get_alloc_of_lt _ inside
  have fresh : (sockets.insert Socket.new).1 ∉ seats.map Prod.fst := by
    intro among
    rcases List.mem_map.mp among with ⟨seat, member, same⟩
    obtain ⟨socket, taken, -⟩ := table.mirrored seat member
    rw [same, Slab.insert_fresh] at taken
    cases taken
  have unknown : links.size ∉ seats.map Prod.snd := by
    intro among
    rcases List.mem_map.mp among with ⟨seat, member, same⟩
    exact absurd (table.known seat member) (by omega)
  refine ⟨?_, ?_, ?_, ?_, ?_, ?_⟩
  · rw [List.map_append]
    exact List.nodup_append_comm.mp (List.nodup_cons.mpr ⟨fresh, table.handles⟩)
  · rw [List.map_append]
    exact List.nodup_append_comm.mp (List.nodup_cons.mpr ⟨unknown, table.distinct⟩)
  · intro seat among
    rw [Arena.size_alloc]
    rcases List.mem_append.mp among with member | last
    · exact Nat.lt_succ_of_lt (table.known seat member)
    · cases List.mem_singleton.mp last
      exact Nat.lt_succ_self _
  · intro seat among
    rcases List.mem_append.mp among with member | last
    · rw [old _ (table.known seat member)]
      exact table.live seat member
    · cases List.mem_singleton.mp last
      rw [Arena.get_alloc_size]
      decide
  · intro seat among
    rcases List.mem_append.mp among with member | last
    · rw [old _ (table.known seat member)]
      exact added.mirrored seat member
    · cases List.mem_singleton.mp last
      rw [Arena.get_alloc_size]
      exact ⟨.new, Slab.get?_insert_self _ _, Socket.mirrors_new⟩
  · intro link inside absent
    rw [List.map_append, List.mem_append, not_or] at absent
    have before : link < links.size := by
      rw [Arena.size_alloc] at inside
      have other : link ≠ links.size := by simpa using absent.2
      omega
    rw [old _ before]
    exact table.forgotten link before absent.1

/-- A connection gives its seat up. -/
theorem release {seat : Nat × Nat} (table : Table sockets links (seat :: seats)) {socket : Socket}
    {left : Slab Socket} (removed : sockets.remove? seat.1 = some (socket, left))
    {change : Connection → Connection}
    (gone : (change (links.get seat.2)).stage = .removed) :
    Table left (links.modify seat.2 change) seats := by
  have handles := List.nodup_cons.mp table.handles
  have distinct := List.nodup_cons.mp table.distinct
  have elsewhere (other : Nat × Nat) (among : other ∈ seats) :
      other.1 ≠ seat.1 ∧ seat.2 ≠ other.2 :=
    ⟨fun same => handles.1 (same ▸ List.mem_map_of_mem among),
      fun same => distinct.1 (same ▸ List.mem_map_of_mem among)⟩
  have later (other : Nat × Nat) (among : other ∈ seats) : other ∈ seat :: seats :=
    List.mem_cons_of_mem _ among
  refine ⟨handles.2, distinct.2, ?_, ?_, ?_, ?_⟩
  · intro other among
    rw [Arena.size_modify]
    exact table.known other (later other among)
  · intro other among
    rw [Arena.get_modify_of_ne _ _ (elsewhere other among).2]
    exact table.live other (later other among)
  · intro other among
    rw [Arena.get_modify_of_ne _ _ (elsewhere other among).2,
      Slab.get?_remove_of_ne _ (elsewhere other among).1 removed]
    exact table.mirrored other (later other among)
  · intro link inside absent
    rw [Arena.size_modify] at inside
    rw [Arena.get_modify _ _ _ inside]
    split
    case isTrue same => rwa [← same]
    case isFalse different =>
      refine table.forgotten link inside ?_
      rw [List.map_cons, List.mem_cons, not_or]
      exact ⟨Ne.symm different, absent⟩

end Table

/-! ### Every state of a run -/

/-- What holds of the loop between any two events. -/
structure Sound (loop : StackRun) : Prop where
  running : loop.phase ≠ .panicked
  table : Table loop.sockets loop.links (loop.conns.map Conn.seat)
  counted : loop.phase ≠ .stopped → loop.sockets.count = loop.conns.length + loop.refused.length
  resting : ∀ index conn, loop.conns[index]? = some conn → loop.phase ≠ .service index →
    (loop.links.get conn.link).stage = if conn.closed then .finish else .top
  closing : ∀ index conn, loop.conns[index]? = some conn → conn.closed = true →
    loop.phase = .retain ∨ ∃ current, loop.phase = .service current ∧ index < current

/-- An entry of a list with one more is an old one or the last. -/
private theorem old_or_last {α : Type} {items : List α} {last item : α} {index : Nat}
    (there : (items ++ [last])[index]? = some item) : items[index]? = some item ∨ item = last := by
  rw [List.getElem?_append] at there
  split at there
  · exact .inl there
  · exact .inr (List.mem_singleton.mp (List.mem_of_getElem? there))

theorem sound_start : Sound start where
  running := nofun
  table := ⟨.nil, .nil, nofun, nofun, nofun, nofun⟩
  counted _ := rfl
  resting := nofun
  closing := nofun

/-- The loop is outside its pass over the connections. -/
def Phase.Quiet (phase : Phase) : Prop := phase = .select ∨ phase = .poll ∨ phase = .transmit

namespace Sound

variable {self : StackRun}

theorem seated (sound : Sound self) {index : Nat} {conn : Conn}
    (there : self.conns[index]? = some conn) :
    conn.seat ∈ self.conns.map Conn.seat ∧ conn.link < self.links.size := by
  have among := List.mem_map_of_mem (f := Conn.seat) (List.mem_of_getElem? there)
  exact ⟨among, sound.table.known _ among⟩

/-- Different connections have different places in the arena. -/
theorem link_ne (sound : Sound self) {index other : Nat} {conn another : Conn}
    (there : self.conns[index]? = some conn) (thereOther : self.conns[other]? = some another)
    (different : index ≠ other) : conn.link ≠ another.link := by
  have distinct := sound.table.distinct
  rw [List.map_map] at distinct
  intro same
  have inside : index < (self.conns.map (Prod.snd ∘ Conn.seat)).length := by
    rw [List.length_map]
    exact (List.getElem?_eq_some_iff.mp there).1
  refine different ((List.getElem?_inj inside distinct).mp ?_)
  simp [there, thereOther, Conn.seat, same]

/-- Outside the pass no connection is closed. -/
theorem open_of_quiet (sound : Sound self) (quiet : Phase.Quiet self.phase) {index : Nat}
    {conn : Conn} (there : self.conns[index]? = some conn) : conn.closed = false := by
  rw [← Bool.not_eq_true]
  intro closed
  rcases quiet with phase | phase | phase <;>
    · rcases sound.closing index conn there closed with retains | ⟨current, serves, -⟩
      · rw [phase] at retains
        cases retains
      · rw [phase] at serves
        cases serves

/-- Outside the pass every connection waits for the next one. -/
theorem top_of_quiet (sound : Sound self) (quiet : Phase.Quiet self.phase) {index : Nat}
    {conn : Conn} (there : self.conns[index]? = some conn) :
    (self.links.get conn.link).stage = .top := by
  have rests := sound.resting index conn there
    (by rcases quiet with phase | phase | phase <;> simp [phase])
  rwa [sound.open_of_quiet quiet there, if_neg Bool.false_ne_true] at rests

/-- The loop goes on with its packets. -/
theorem turn (sound : Sound self) (quiet : Phase.Quiet self.phase) (device : DeviceState)
    (traffic : Traffic) {phase : Phase} (running : phase ≠ .panicked) :
    Sound { self with device := device, traffic := traffic, phase := phase } where
  running := running
  table := sound.table
  counted _ := sound.counted (by rcases quiet with phase | phase | phase <;> simp [phase])
  resting index conn there _ := by
    rw [sound.top_of_quiet quiet there, sound.open_of_quiet quiet there]
    rfl
  closing index conn there closed := by
    rw [sound.open_of_quiet quiet there] at closed
    cases closed

theorem client (sound : Sound self) (place : Nat) {action : Connection.Step}
    (client : action.ofClient = true) :
    Sound { self with links := self.links.modify place (·.step action) } := by
  have same (link : Nat) (inside : link < self.links.size) :
      ((self.links.modify place (·.step action)).get link).stage = (self.links.get link).stage ∧
        ((self.links.modify place (·.step action)).get link).accepted =
          (self.links.get link).accepted ∧
        ((self.links.modify place (·.step action)).get link).received =
          (self.links.get link).received := by
    rw [Arena.get_modify _ _ _ inside]
    split
    case isTrue => exact Connection.step_ofClient _ client
    case isFalse => exact ⟨rfl, rfl, rfl⟩
  refine { sound with table := ?_, resting := ?_ }
  · refine sound.table.change (Arena.size_modify _ _ _) (fun link inside => (same link inside).2.1)
      (fun link inside => (same link inside).2.2) fun link inside => ?_
    rw [(same link inside).1]
  · intro index conn there elsewhere
    rw [(same _ (sound.seated there).2).1]
    exact sound.resting index conn there elsewhere

theorem openSocket (sound : Sound self) (selecting : self.phase = .select)
    (failure : Option String) : Sound (self.openSocket failure) := by
  have quiet : Phase.Quiet self.phase := .inl selecting
  have counted := sound.counted (by simp [selecting])
  unfold StackRun.openSocket
  cases failure with
  | some error =>
      have next : Sound { self with phase := .poll } :=
        sound.turn quiet self.device self.traffic nofun
      refine { next with table := sound.table.insert _, counted := fun _ => ?_ }
      simp [Slab.count_insert, counted, Nat.add_assoc]
  | none =>
      refine ⟨nofun, ?_, ?_, ?_, ?_⟩
      · simpa [Conn.seat, Arena.alloc] using sound.table.open
      · intro _
        simp [Slab.count_insert, counted, Nat.add_right_comm]
      · intro index conn there _
        rcases old_or_last there with before | last
        · have inside := (sound.seated before).2
          show ((self.links.alloc .opened).2.get conn.link).stage = _
          rw [Arena.get_alloc_of_lt _ _ inside, sound.top_of_quiet quiet before,
            sound.open_of_quiet quiet before]
          rfl
        · cases last
          show ((self.links.alloc .opened).2.get self.links.size).stage = _
          rw [Arena.get_alloc_size]
          rfl
      · intro index conn there closed
        rcases old_or_last there with before | last
        · rw [sound.open_of_quiet quiet before] at closed
          cases closed
        · cases last
          cases closed

/-- The connection the pass is at goes on with its socket. -/
theorem serveLink (sound : Sound self) {index : Nat} (serving : self.phase = .service index)
    {conn : Conn} (there : self.conns[index]? = some conn) {socket : Socket}
    (taken : self.sockets.get? conn.handle = some socket) {action : Connection.Step}
    (loop : action.ofClient = false) (other : ∀ answer, action ≠ .isOpen answer) :
    Sound { self with
      sockets := self.sockets.replace conn.handle (socket.serve (self.links.get conn.link) action)
      links := self.links.modify conn.link (·.step action) } := by
  have seated := sound.seated there
  obtain ⟨mirror, same, mirrors⟩ := sound.table.mirrored _ seated.1
  rw [Conn.seat, taken, Option.some.injEq] at same
  rw [← same] at mirrors
  have live := Connection.live_step (sound.table.live _ seated.1) other
  refine { sound with table := ?_, counted := ?_, resting := ?_ }
  · exact sound.table.serve seated.1 taken (mirrors.serve loop other) live
  · intro going
    rw [Slab.count_replace]
    exact sound.counted going
  · intro position conn' thereToo elsewhere
    have different : index ≠ position := fun same => elsewhere (same ▸ serving)
    rw [Arena.get_modify_of_ne _ _ (sound.link_ne there thereToo different)]
    exact sound.resting position conn' thereToo elsewhere

/-- The socket is open: the connection waits for the next pass. -/
theorem serveOpen (sound : Sound self) {index : Nat} (serving : self.phase = .service index)
    {conn : Conn} (there : self.conns[index]? = some conn)
    (finish : (self.links.get conn.link).stage = .finish) :
    Sound { self with links := self.links.modify conn.link (·.step (.isOpen true))
                      phase := .service (index + 1) } := by
  have stepped : (self.links.get conn.link).step (.isOpen true) =
      { self.links.get conn.link with stage := .top } := Connection.step_isOpen finish true
  have inside := (sound.seated there).2
  have notClosed : conn.closed = false := by
    rw [← Bool.not_eq_true]
    intro closed
    rcases sound.closing index conn there closed with retains | ⟨current, serves, behind⟩
    · rw [serving] at retains
      cases retains
    · rw [serving] at serves
      cases serves
      omega
  have unmoved (link : Nat) (known : link < self.links.size) :
      ((self.links.modify conn.link (·.step (.isOpen true))).get link).accepted =
          (self.links.get link).accepted ∧
        ((self.links.modify conn.link (·.step (.isOpen true))).get link).received =
          (self.links.get link).received ∧
        (((self.links.modify conn.link (·.step (.isOpen true))).get link).stage = .removed ↔
          (self.links.get link).stage = .removed) := by
    rw [Arena.get_modify _ _ _ known]
    split
    case isTrue same =>
      rw [← same, stepped, finish]
      exact ⟨rfl, rfl, by simp⟩
    case isFalse => exact ⟨rfl, rfl, Iff.rfl⟩
  refine ⟨nofun, ?_, ?_, ?_, ?_⟩
  · exact sound.table.change (Arena.size_modify _ _ _) (fun link known => (unmoved link known).1)
      (fun link known => (unmoved link known).2.1) fun link known => (unmoved link known).2.2
  · exact fun _ => sound.counted (by simp [serving])
  · intro position conn' thereToo elsewhere
    by_cases same : index = position
    · rw [← same, there, Option.some.injEq] at thereToo
      rw [← thereToo, Arena.get_modify_self _ _ inside, stepped, notClosed]
      rfl
    · rw [Arena.get_modify_of_ne _ _ (sound.link_ne there thereToo same)]
      refine sound.resting position conn' thereToo ?_
      rw [serving, ne_eq, Phase.service.injEq]
      exact same
  · intro position conn' thereToo closed
    right
    rcases sound.closing position conn' thereToo closed with retains | ⟨current, serves, behind⟩
    · rw [serving] at retains
      cases retains
    · rw [serving] at serves
      cases serves
      exact ⟨index + 1, rfl, Nat.lt_succ_of_lt behind⟩

/-- The socket is closed: the connection is marked. -/
theorem serveClosed (sound : Sound self) {index : Nat} (serving : self.phase = .service index)
    {conn : Conn} (there : self.conns[index]? = some conn)
    (finish : (self.links.get conn.link).stage = .finish) :
    Sound { self with conns := self.conns.set index { conn with closed := true }
                      phase := .service (index + 1) } := by
  have inside := (List.getElem?_eq_some_iff.mp there).1
  have seats : (self.conns.set index { conn with closed := true }).map Conn.seat =
      self.conns.map Conn.seat := by
    have within : index < (self.conns.map Conn.seat).length := by rwa [List.length_map]
    have same : Conn.seat { conn with closed := true } = (self.conns.map Conn.seat)[index] := by
      rw [List.getElem_map, (List.getElem_eq_iff inside).mpr there]
      rfl
    rw [List.map_set, same, List.set_getElem_self]
  refine ⟨nofun, ?_, ?_, ?_, ?_⟩
  · rw [seats]
    exact sound.table
  · intro _
    rw [List.length_set]
    exact sound.counted (by simp [serving])
  · intro position conn' thereToo elsewhere
    by_cases same : index = position
    · rw [← same, List.getElem?_set_self inside, Option.some.injEq] at thereToo
      rw [← thereToo]
      exact finish
    · rw [List.getElem?_set_ne same] at thereToo
      refine sound.resting position conn' thereToo ?_
      rw [serving, ne_eq, Phase.service.injEq]
      exact same
  · intro position conn' thereToo closed
    right
    by_cases same : index = position
    · exact ⟨index + 1, rfl, same ▸ Nat.lt_succ_self _⟩
    · rw [List.getElem?_set_ne same] at thereToo
      rcases sound.closing position conn' thereToo closed with retains | ⟨current, serves, behind⟩
      · rw [serving] at retains
        cases retains
      · rw [serving] at serves
        cases serves
        exact ⟨index + 1, rfl, Nat.lt_succ_of_lt behind⟩

theorem serve (sound : Sound self) {index : Nat} (serving : self.phase = .service index)
    (action : Connection.Step) : Sound (self.serve index action) := by
  unfold StackRun.serve
  rcases there : self.conns[index]? with _ | conn
  · refine { sound with running := nofun, counted := fun _ => ?_, resting := ?_, closing := ?_ }
    · exact sound.counted (by simp [serving])
    · intro position conn thereToo _
      refine sound.resting position conn thereToo fun same => ?_
      rw [serving, Phase.service.injEq] at same
      rw [same, thereToo] at there
      cases there
    · exact fun _ _ _ _ => .inl rfl
  · obtain ⟨socket, taken, -⟩ := sound.table.mirrored _ (sound.seated there).1
    rw [Conn.seat] at taken
    simp only [taken]
    split
    case h_1 finish => exact sound.serveOpen serving there finish
    case h_2 finish => exact sound.serveClosed serving there finish
    case h_3 => exact sound
    case h_4 other _ _ =>
      split
      case isTrue => exact sound
      case isFalse loop =>
        exact sound.serveLink serving there taken (Bool.not_eq_true _ ▸ loop) other

end Sound

/-! ### Removing what is closed -/

/-- `conns.retain` still has to release these. -/
structure Releasing (loop : StackRun) (closed : List Conn) : Prop where
  selecting : loop.phase = .select
  table : Table loop.sockets loop.links ((closed ++ loop.conns).map Conn.seat)
  counted : loop.sockets.count = (closed ++ loop.conns).length + loop.refused.length
  finished : ∀ conn ∈ closed, (loop.links.get conn.link).stage = .finish
  kept : ∀ conn ∈ loop.conns, conn.closed = false ∧ (loop.links.get conn.link).stage = .top

theorem Releasing.release {self : StackRun} {conn : Conn} {closed : List Conn}
    (releasing : Releasing self (conn :: closed)) : Releasing (self.release conn) closed := by
  have table := releasing.table
  rw [List.cons_append, List.map_cons] at table
  have first : conn.seat ∈ conn.seat :: (closed ++ self.conns).map Conn.seat :=
    List.mem_cons_self
  obtain ⟨socket, taken, -⟩ := table.mirrored _ first
  have removed := Slab.remove?_eq_some _ taken
  have gone : ((self.links.get conn.link).step (.isOpen false)).stage = .removed := by
    rw [Connection.step_isOpen (releasing.finished conn List.mem_cons_self)]
    rfl
  have others (another : Conn) (among : another ∈ closed ++ self.conns) :
      (self.links.modify conn.link (·.step (.isOpen false))).get another.link =
        self.links.get another.link := by
    refine Arena.get_modify_of_ne _ _ fun same => ?_
    have distinct := List.nodup_cons.mp table.distinct
    rw [List.map_map] at distinct
    exact distinct.1 (List.mem_map.mpr ⟨another, among, same.symm⟩)
  unfold StackRun.release
  rw [Conn.seat] at removed
  simp only [removed]
  refine ⟨releasing.selecting, table.release removed gone, ?_, ?_, ?_⟩
  · have fewer := Slab.count_remove _ removed
    have counted := releasing.counted
    rw [List.cons_append, List.length_cons] at counted
    dsimp only at fewer ⊢
    omega
  · intro another among
    rw [others another (List.mem_append_left _ among)]
    exact releasing.finished another (List.mem_cons_of_mem _ among)
  · intro another among
    rw [others another (List.mem_append_right _ among)]
    exact releasing.kept another among

theorem Releasing.all {closed : List Conn} : ∀ {self : StackRun}, Releasing self closed →
    Releasing (closed.foldl StackRun.release self) [] := by
  induction closed with
  | nil => exact id
  | cons conn rest inductionHypothesis => exact fun releasing => inductionHypothesis releasing.release

theorem Releasing.sound {self : StackRun} (releasing : Releasing self []) : Sound self where
  running := by simp [releasing.selecting]
  table := releasing.table
  counted _ := releasing.counted
  resting _ conn there _ := by
    have kept := releasing.kept conn (List.mem_of_getElem? there)
    rw [kept.1, kept.2]
    rfl
  closing _ conn there closed := by
    rw [(releasing.kept conn (List.mem_of_getElem? there)).1] at closed
    cases closed

namespace Sound

variable {self : StackRun}

theorem retain (sound : Sound self) (retaining : self.phase = .retain) : Sound self.retain := by
  have parts : (self.conns.filter Conn.closed ++
      self.conns.filter fun conn => !conn.closed).Perm self.conns :=
    List.filter_append_perm Conn.closed self.conns
  have rests (conn : Conn) (among : conn ∈ self.conns) :
      (self.links.get conn.link).stage = if conn.closed then .finish else .top := by
    obtain ⟨index, there⟩ := List.getElem?_of_mem among
    exact sound.resting index conn there (by simp [retaining])
  refine (Releasing.all ⟨rfl, ?_, ?_, ?_, ?_⟩).sound
  · exact sound.table.perm (parts.map _).symm
  · show self.sockets.count = _
    rw [parts.length_eq]
    exact sound.counted (by simp [retaining])
  · intro conn among
    rw [List.mem_filter] at among
    rw [rests conn among.1, if_pos among.2]
  · intro conn among
    rw [List.mem_filter, Bool.not_eq_eq_eq_not, Bool.not_true] at among
    refine ⟨among.2, ?_⟩
    show (self.links.get conn.link).stage = .top
    rw [rests conn among.1, among.2]
    rfl

/-- The end of the loop drops what it has. -/
theorem stop (sound : Sound self) : Sound self.stop := by
  have distinct := sound.table.distinct
  rw [List.map_map] at distinct
  refine ⟨nofun, ⟨.nil, .nil, nofun, nofun, nofun, ?_⟩, fun going => absurd rfl going, nofun, nofun⟩
  intro link inside _
  have known : link < self.links.size := by
    rwa [StackRun.stop, Arena.size_foldl_modify] at inside
  show ((self.conns.foldl (fun links conn => links.modify conn.link (·.forsaken))
    self.links).get link).stage = .removed
  rw [Arena.get_foldl_modify _ Conn.link _ distinct known]
  split
  case isTrue => rfl
  case isFalse absent =>
    refine sound.table.forgotten link known ?_
    rw [List.map_map]
    exact absent

theorem step (sound : Sound self) (event : Event) : Sound (self.step event) := by
  unfold StackRun.step
  split
  case h_1 link action =>
    split
    case isTrue client => exact sound.client link client
    case isFalse => exact sound
  case h_2 failure selecting => exact sound.openSocket selecting failure
  case h_3 => exact sound.stop
  case h_4 received selecting =>
    have quiet : Phase.Quiet self.phase := .inl selecting
    cases received with
    | none => exact sound.turn quiet self.device self.traffic nofun
    | some packet =>
        simp only [receive]
        split
        case isTrue => exact sound.turn quiet _ _ nofun
        case isFalse => exact sound.turn quiet self.device _ nofun
  case h_5 selecting => exact sound.turn (.inl selecting) self.device self.traffic nofun
  case h_6 ingested emitted polling => exact sound.turn (.inr (.inl polling)) _ _ nofun
  case h_7 sent transmitting =>
    have quiet : Phase.Quiet self.phase := .inr (.inr transmitting)
    unfold transmit
    split
    case h_1 => exact sound.turn quiet self.device self.traffic nofun
    case h_2 => exact sound.turn quiet _ _ (by cases sent <;> exact nofun)
  case h_8 action index serving => exact sound.serve serving action
  case h_9 retaining => exact sound.retain retaining
  case h_10 => exact sound

end Sound

theorem sound_run (events : List Event) : Sound (run step start events) :=
  run_always (fun _ event sound => sound.step event) events sound_start

/-- The loop never panics on a handle: in every run each live connection has a
socket of its own, which holds exactly its bytes, the connections that are not
live are removed, and the only other sockets in the set are those of the opens
that failed. -/
theorem table_run (events : List Event) :
    let loop := run step start events
    loop.phase ≠ .panicked ∧ (loop.conns.map Conn.handle).Nodup ∧
      (∀ conn ∈ loop.conns, ∃ socket, loop.sockets.get? conn.handle = some socket ∧
        socket.Mirrors (loop.links.get conn.link)) ∧
      (∀ link < loop.links.size, ((loop.links.get link).stage = .removed ↔
        ∀ conn ∈ loop.conns, conn.link ≠ link)) ∧
      (loop.phase ≠ .stopped →
        loop.sockets.count = loop.conns.length + loop.refused.length) := by
  have sound := sound_run events
  have handles := sound.table.handles
  rw [List.map_map] at handles
  refine ⟨sound.running, handles, ?_, ?_, sound.counted⟩
  · intro conn among
    exact sound.table.mirrored conn.seat (List.mem_map_of_mem among)
  · intro link inside
    constructor
    · rintro removed conn among rfl
      exact sound.table.live conn.seat (List.mem_map_of_mem among) removed
    · intro absent
      refine sound.table.forgotten link inside fun among => ?_
      rw [List.map_map] at among
      obtain ⟨conn, member, same⟩ := List.mem_map.mp among
      exact absent conn member same

/-- A run with a failed open and a used connection, and what is left of them. -/
def reopened : List Event :=
  [.open (some "Unaddressable"), .poll 0 [], .transmit true, .serve (.isOpen true), .retain,
    .open none, .poll 0 [[1]], .transmit true, .transmit true, .serve (.recvSlice false none),
    .serve (.canSend false), .serve (.isOpen false), .serve (.isOpen false), .retain]

example : (run step start reopened).sockets.count = 1 ∧
    (run step start reopened).phase = .select := by
  decide

end StackRun

end Unroxy.OpenVpn
