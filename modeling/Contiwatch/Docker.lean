import Contiwatch.Lib.GoMap
import Contiwatch.Lib.GoStrings
import Contiwatch.Lib.Keyed

/-!
# The Docker Daemon

The part of the Docker API that `internal/dockerwatcher/watcher.go` calls to inspect, stop,
remove, create and start containers and to pull images. A daemon holds containers whose IDs
and names are unique. A `Docker` value is one behaviour of daemon and registry: which calls
fail, and with which error, which image a reference stands for at each call, and which ID a
new container gets. A call that fails leaves the daemon as it was.

Of a container's configuration the fields that the code reads or writes are modelled by
themselves; the others, which it passes on as they are, are one list of fields.
-/

namespace Contiwatch

open GoStrings

/-! ### Containers -/

/-- `network.EndpointIPAMConfig`. -/
structure EndpointIPAMConfig where
  ipv4Address : String
  ipv6Address : String
  linkLocalIPs : List String
  deriving DecidableEq, Repr

/-- `network.EndpointSettings` without its operational data. -/
structure EndpointSettings where
  aliases : List String
  links : List String
  ipamConfig : Option EndpointIPAMConfig
  driverOpts : List (String × String)
  macAddress : String
  gwPriority : ℤ
  deriving DecidableEq, Repr

/-- `container.Config`. -/
structure ContainerConfig where
  hostname : String
  image : String
  labels : List (String × String)
  entrypoint : List String
  cmd : List String
  env : List String
  fields : List (String × String)
  deriving DecidableEq, Repr

/-- `container.HostConfig`. -/
structure HostConfig where
  autoRemove : Bool
  binds : List String
  fields : List (String × String)
  deriving DecidableEq, Repr

/-- The two flags of `container.State` that the code reads. -/
structure ContainerState where
  running : Bool
  paused : Bool
  deriving DecidableEq, Repr

/-- `container.InspectResponse`: a container as the daemon knows and reports it. The name has
a leading slash and the image is an image ID; the pointers may be nil. -/
structure Container where
  id : String
  name : String
  image : String
  state : Option ContainerState
  config : Option ContainerConfig
  hostConfig : Option HostConfig
  networks : Option (GoMap String EndpointSettings)

/-- `inspect.State != nil && inspect.State.Running`. -/
def Container.running (c : Container) : Bool := (c.state.map ContainerState.running).getD false

/-- The container once it is stopped. -/
def Container.stopped (c : Container) : Container := { c with state := some ⟨false, false⟩ }

/-- The container once it is started. -/
def Container.started (c : Container) : Container := { c with state := some ⟨true, false⟩ }

/-! ### The daemon -/

/-- A container has an ID, and a name with its leading slash. -/
def Container.Named (c : Container) : Prop := c.id ≠ "" ∧ ∃ n, n ≠ "" ∧ c.name = "/" ++ n

/-- A Docker daemon: its containers have different IDs and different names. -/
structure Daemon where
  containers : List Container
  nodup_id : (containers.map Container.id).Nodup
  nodup_name : (containers.map Container.name).Nodup
  named : ∀ c ∈ containers, c.Named

namespace Daemon

/-- The container with the ID `id`. -/
def byID (d : Daemon) (id : String) : Option Container :=
  Keyed.find Container.id d.containers id

/-- The container with the name `name`, slash included. -/
def byName (d : Daemon) (name : String) : Option Container :=
  Keyed.find Container.name d.containers name

/-- The container whose ID starts with `pre`, if there is exactly one. -/
def byPrefix (d : Daemon) (pre : String) : Option Container :=
  match d.containers.filter fun c => hasPrefix c.id pre with
  | [c] => some c
  | _ => none

/-- The container that `ref` stands for: a full ID, a name, or else an unambiguous prefix of
an ID. -/
def resolve (d : Daemon) (ref : String) : Option Container :=
  if ref = "" then none
  else (d.byID ref).or
    ((d.byName (if hasPrefix ref "/" then ref else "/" ++ ref)).or (d.byPrefix ref))

/-- Change the container with the ID `id`, but neither its ID nor its name. -/
def modify (d : Daemon) (id : String) (f : Container → Container)
    (hid : ∀ c, (f c).id = c.id) (hname : ∀ c, (f c).name = c.name) : Daemon where
  containers := d.containers.map fun c => if c.id = id then f c else c
  nodup_id := by
    rw [Keyed.map_map_key fun c => by split_ifs <;> simp only [hid]]
    exact d.nodup_id
  nodup_name := by
    rw [Keyed.map_map_key fun c => by split_ifs <;> simp only [hname]]
    exact d.nodup_name
  named := by
    intro c hc
    obtain ⟨c₀, hc₀, rfl⟩ := List.mem_map.mp hc
    have hnamed := d.named c₀ hc₀
    split_ifs
    · rwa [Container.Named, hid, hname]
    · exact hnamed

/-- Stop the container with the ID `id`. -/
def stop (d : Daemon) (id : String) : Daemon :=
  d.modify id Container.stopped (fun _ => rfl) (fun _ => rfl)

/-- Start the container with the ID `id`. -/
def start (d : Daemon) (id : String) : Daemon :=
  d.modify id Container.started (fun _ => rfl) (fun _ => rfl)

/-- Remove the container with the ID `id`. -/
def remove (d : Daemon) (id : String) : Daemon where
  containers := d.containers.filter fun c => c.id ≠ id
  nodup_id := d.nodup_id.sublist (List.filter_sublist.map _)
  nodup_name := d.nodup_name.sublist (List.filter_sublist.map _)
  named := fun c hc => d.named c (List.mem_of_mem_filter hc)

/-- Add a container under an ID and a name that are not in use. -/
def add (d : Daemon) (c : Container) (hid : d.byID c.id = none) (hname : d.byName c.name = none)
    (hnamed : c.Named) : Daemon where
  containers := c :: d.containers
  nodup_id := Keyed.nodup_cons d.nodup_id hid
  nodup_name := Keyed.nodup_cons d.nodup_name hname
  named := by
    intro c' hc'
    rcases List.mem_cons.mp hc' with rfl | hc'
    · exact hnamed
    · exact d.named c' hc'

/-! ### What the changes do to names and IDs -/

variable {d : Daemon} {c c' : Container} {n : String}

/-- An id is found where a container has it. -/
theorem byID_eq_some : d.byID n = some c ↔ c ∈ d.containers ∧ c.id = n :=
  Keyed.find_eq_some d.nodup_id

/-- A name is found where a container has it. -/
theorem byName_eq_some : d.byName n = some c ↔ c ∈ d.containers ∧ c.name = n :=
  Keyed.find_eq_some d.nodup_name

/-- Ids tell containers apart. -/
theorem eq_of_id (hc : c ∈ d.containers) (hc' : c' ∈ d.containers) (h : c.id = c'.id) : c = c' :=
  List.inj_on_of_nodup_map d.nodup_id hc hc' h

/-- So do names. -/
theorem eq_of_name (hc : c ∈ d.containers) (hc' : c' ∈ d.containers) (h : c.name = c'.name) :
    c = c' :=
  List.inj_on_of_nodup_map d.nodup_name hc hc' h

/-- A full ID stands for its container. -/
theorem resolve_id (hc : c ∈ d.containers) : d.resolve c.id = some c := by
  rw [resolve, if_neg (d.named c hc).1, byID_eq_some.mpr ⟨hc, rfl⟩, Option.some_or]

/-- Whatever a reference stands for is there. -/
theorem mem_of_resolve (h : d.resolve n = some c) : c ∈ d.containers := by
  rw [resolve] at h
  by_cases hn : n = ""
  · rw [if_pos hn] at h
    exact absurd h (by simp)
  rw [if_neg hn] at h
  rcases Option.or_eq_some_iff.mp h with h | ⟨-, h⟩
  · exact (byID_eq_some.mp h).1
  rcases Option.or_eq_some_iff.mp h with h | ⟨-, h⟩
  · exact (byName_eq_some.mp h).1
  · rw [byPrefix] at h
    split at h
    · rename_i c₀ hfilter
      obtain rfl := Option.some.inj h
      exact List.mem_of_mem_filter (hfilter ▸ List.mem_singleton_self c₀)
    · exact absurd h (by simp)

section

variable {f : Container → Container} {hid : ∀ c, (f c).id = c.id}
  {hname : ∀ c, (f c).name = c.name}

/-- The changed container is among the containers. -/
theorem mem_modify (hc : c ∈ d.containers) : f c ∈ (d.modify c.id f hid hname).containers :=
  List.mem_map.mpr ⟨c, hc, if_pos rfl⟩

/-- It answers to its old name. -/
theorem byName_modify (hc : c ∈ d.containers) :
    (d.modify c.id f hid hname).byName c.name = some (f c) :=
  byName_eq_some.mpr ⟨mem_modify hc, hname c⟩

/-- The other names find what they found. -/
theorem byName_modify_other (hc : c ∈ d.containers) (hn : n ≠ c.name) :
    (d.modify c.id f hid hname).byName n = d.byName n := by
  refine Keyed.find_congr d.nodup_name (d.modify c.id f hid hname).nodup_name ?_
  rintro a rfl
  constructor
  · intro ha
    obtain ⟨b, hb, heq⟩ := List.mem_map.mp ha
    split_ifs at heq with hbc
    · rw [eq_of_id hb hc hbc] at heq
      rw [← heq, hname] at hn
      exact absurd rfl hn
    · rwa [← heq]
  · intro ha
    refine List.mem_map.mpr ⟨a, ha, if_neg fun h => ?_⟩
    exact hn (congrArg Container.name (eq_of_id ha hc h))

end

/-- A removed container's name finds nothing. -/
theorem byName_remove (hc : c ∈ d.containers) : (d.remove c.id).byName c.name = none := by
  refine Keyed.find_eq_none.mpr fun a ha h => ?_
  obtain ⟨hmem, hne⟩ := List.mem_filter.mp ha
  exact absurd (congrArg Container.id (eq_of_name hmem hc h)) (by simpa using hne)

/-- The other names find what they found. -/
theorem byName_remove_other (hc : c ∈ d.containers) (hn : n ≠ c.name) :
    (d.remove c.id).byName n = d.byName n := by
  refine Keyed.find_congr d.nodup_name (d.remove c.id).nodup_name ?_
  rintro a rfl
  constructor
  · exact fun ha => List.mem_of_mem_filter ha
  · intro ha
    have hne : a.id ≠ c.id := fun h => hn (congrArg Container.name (eq_of_id ha hc h))
    exact List.mem_filter.mpr ⟨ha, by simpa using hne⟩

section

variable {hid : d.byID c.id = none} {hname : d.byName c.name = none}
  {hnamed : c.Named}

/-- The new container is among the containers. -/
theorem mem_add : c ∈ (d.add c hid hname hnamed).containers :=
  List.mem_cons_self ..

/-- The names of the others find what they found. -/
theorem byName_add_other (hn : n ≠ c.name) : (d.add c hid hname hnamed).byName n = d.byName n := by
  refine Keyed.find_congr d.nodup_name (d.add c hid hname hnamed).nodup_name ?_
  rintro a rfl
  refine ⟨fun ha => ?_, fun ha => List.mem_cons_of_mem c ha⟩
  rcases List.mem_cons.mp ha with rfl | ha
  · exact absurd rfl hn
  · exact ha

end

end Daemon

/-! ### Calls -/

/-- One behaviour of the daemon and the registry. The calls of a client are numbered; for
each call it says whether and how it fails, the image a reference stands for, the ID a new
container gets, and what pruning images reports. The mounts of a container, by its ID, are
pairs of a source and a destination. -/
structure Docker where
  fails : ℕ → Option String
  imageID : ℕ → String → String
  newID : ℕ → String
  pruned : ℕ → ℕ × ℕ
  mounts : String → List (String × String)

/-- A daemon as one client has left it, with the number of calls it made and the containers
it asked to stop or to remove, oldest first. -/
structure Client where
  daemon : Daemon
  calls : ℕ
  halted : List String

/-- One more call. -/
def Client.tick (s : Client) : Client := { s with calls := s.calls + 1 }

/-- One more call, after which the daemon is `d`. -/
def Client.change (s : Client) (d : Daemon) : Client :=
  { s with daemon := d, calls := s.calls + 1 }

/-- The container `ref` is to be stopped or removed. -/
def Client.halt (s : Client) (ref : String) : Client := { s with halted := s.halted ++ [ref] }

@[simp] theorem Client.tick_daemon (s : Client) : s.tick.daemon = s.daemon := rfl

@[simp] theorem Client.tick_halted (s : Client) : s.tick.halted = s.halted := rfl


@[simp] theorem Client.change_calls (s : Client) (d : Daemon) :
    (s.change d).calls = s.calls + 1 := rfl

@[simp] theorem Client.change_halted (s : Client) (d : Daemon) :
    (s.change d).halted = s.halted := rfl

@[simp] theorem Client.halt_daemon (s : Client) (ref : String) :
    (s.halt ref).daemon = s.daemon := rfl

@[simp] theorem Client.halt_halted (s : Client) (ref : String) :
    (s.halt ref).halted = s.halted ++ [ref] := rfl

/-- The error for a reference that stands for no container. -/
def noSuchContainer (ref : String) : String := "No such container: " ++ ref

/-- The first twelve characters of an ID. -/
def shortID (id : String) : String := String.ofList (id.toList.take 12)

/-- The hostname of a new container: the start of its ID unless one is given. -/
def assignHostname (hostname id : String) : String := if hostname = "" then shortID id else hostname

section

variable (o : Docker)

/-- `ContainerInspect`. -/
def containerInspect (ref : String) (s : Client) : Except String Container × Client :=
  match o.fails s.calls with
  | some err => (.error err, s.tick)
  | none =>
      match s.daemon.resolve ref with
      | none => (.error (noSuchContainer ref), s.tick)
      | some c => (.ok c, s.tick)

/-- A call that does `act` to the container a reference stands for. -/
def containerAct (act : Daemon → String → Daemon) (ref : String) (s : Client) :
    Except String Unit × Client :=
  match o.fails s.calls with
  | some err => (.error err, s.tick)
  | none =>
      match s.daemon.resolve ref with
      | none => (.error (noSuchContainer ref), s.tick)
      | some c => (.ok (), s.change (act s.daemon c.id))

/-- `ContainerStop`. -/
def containerStop (ref : String) (s : Client) : Except String Unit × Client :=
  containerAct o Daemon.stop ref (s.halt ref)

/-- `ContainerStart`. -/
def containerStart (ref : String) (s : Client) : Except String Unit × Client :=
  containerAct o Daemon.start ref s

/-- `ContainerRemove` with `Force`. -/
def containerRemove (ref : String) (s : Client) : Except String Unit × Client :=
  containerAct o Daemon.remove ref (s.halt ref)

/-- The container that a call of `ContainerCreate` makes. It is not running; endpoints that are
not given are left to the network mode of the host configuration. -/
def newContainer (call : ℕ) (config : ContainerConfig) (hostConfig : HostConfig)
    (endpoints : Option (GoMap String EndpointSettings)) (name : String) : Container where
  id := o.newID call
  name := "/" ++ name
  image := o.imageID call config.image
  state := some ⟨false, false⟩
  config := some { config with hostname := assignHostname config.hostname (o.newID call) }
  hostConfig := some hostConfig
  networks := endpoints

/-- `ContainerCreate`. A name or an ID in use is a conflict. -/
def containerCreate (config : ContainerConfig) (hostConfig : HostConfig)
    (endpoints : Option (GoMap String EndpointSettings)) (name : String) (s : Client) :
    Except String String × Client :=
  match o.fails s.calls with
  | some err => (.error err, s.tick)
  | none =>
      let c := newContainer o s.calls config hostConfig endpoints name
      if h : (s.daemon.byID c.id).isNone ∧ (s.daemon.byName c.name).isNone ∧ c.id ≠ "" ∧
          name ≠ "" then
        (.ok c.id, s.change (s.daemon.add c (by simpa using h.1) (by simpa using h.2.1)
          ⟨h.2.2.1, name, h.2.2.2, rfl⟩))
      else (.error ("Conflict. The container name " ++ name ++ " is already in use"), s.tick)

/-- `ImagePull`. -/
def imagePull (s : Client) : Except String Unit × Client :=
  match o.fails s.calls with
  | some err => (.error err, s.tick)
  | none => (.ok (), s.tick)

/-- The ID that `ImageInspectWithRaw` reports for a reference. -/
def imageInspect (imageRef : String) (s : Client) : Except String String × Client :=
  match o.fails s.calls with
  | some err => (.error err, s.tick)
  | none => (.ok (o.imageID s.calls imageRef), s.tick)

/-- `ImagesPrune`: how many images were deleted, and the bytes reclaimed. -/
def imagesPrune (s : Client) : Except String (ℕ × ℕ) × Client :=
  match o.fails s.calls with
  | some err => (.error err, s.tick)
  | none => (.ok (o.pruned s.calls), s.tick)

end

end Contiwatch
