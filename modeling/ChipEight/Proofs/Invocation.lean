import ChipEight.Main
import ChipEight.Proofs.HostFault

namespace ChipEight.HostLoop

variable {Surface Refusal : Type} (d : Display Surface Refusal)

structure Follows (r : Session.Report Surface Refusal) (ts : List Turn) (cpuHz : Int) :
    Prop where
  passes : Turn.MatchAll ts r.passes
  ticks : r.ticks = ts.map fun _ => 60
  final : r.final = ts.getLast?.map fun t => t.outcome.machine
  exit : r.exit = ts.getLast?.bind fun t => t.outcome.fault.map fun _ => .crashed t.outcome.machine
  crash : ∀ m, r.exit = some (.crashed m) → Main.farewell d r.exit =
    (["********** THE EMULATOR CRASHED WITH THE FOLLOWING STATE\n" ++ m.dump], 1)
  /-- Turns fail by one of their cycles only, and never by a fault of the caller. -/
  fault : ∀ t ∈ ts, ∀ f, t.outcome.fault = some f →
    f.family ≠ .misuse ∧ ∃ k < share cpuHz, t.FailsAt k f

theorem map_eq_of_matches {α : Type} {ts : List Turn} {ps : List (Pass Surface)} {f : Turn → α}
    {g : Pass Surface → α} (h : Turn.MatchAll ts ps) (hfg : ∀ t p, t.Matches p → f t = g p) :
    ts.map f = ps.map g := by
  induction h with
  | nil => rfl
  | cons ht _ ih => rw [List.map_cons, List.map_cons, hfg _ _ ht, ih]

theorem play_follows {loaded : Outcome} (h : loaded.machine.WellFormed) (scale cpuHz : Int)
    (batches : List (List Input)) (level : Level) (w : Surface) :
    Follows d (Session.play d scale cpuHz batches level loaded w)
      (turns cpuHz batches loaded.machine) cpuHz := by
  have hm := turns_match d scale cpuHz batches loaded.machine w
  refine ⟨hm, ?_, ?_, ?_, ?_, ?_⟩
  · exact (map_eq_of_matches hm fun _ _ ht => ht.tick.symm).symm
  · have hmap := map_eq_of_matches hm fun _ _ ht => ht.after.symm
    have hlast := congrArg List.getLast? hmap
    rw [List.getLast?_map, List.getLast?_map] at hlast
    exact hlast.symm
  · have hexit : ∀ (t : Turn) (p : Pass Surface), t.Matches p →
        (t.outcome.fault.map fun _ => Exit.crashed t.outcome.machine) =
          (Session.exitOf p : Option (Exit Refusal)) := by
      intro t p ht
      rw [Session.exitOf, ht.fault, ht.after]
    have hmap := map_eq_of_matches hm hexit
    have hlast := congrArg (fun l => l.getLast?.bind id) hmap
    simp only [List.getLast?_map, Option.bind_map] at hlast
    exact hlast.symm
  · intro m he
    rw [he]
    rfl
  · intro t ht f hf
    obtain ⟨hw, heq⟩ := mem_turns h ht
    rw [heq] at hf ⊢
    obtain ⟨k, hk, hfails⟩ := exists_failsAt hf
    have hwk := hw.performEach (forwarded t.batch ++ List.replicate k .cycle)
    exact ⟨Machine.family_of_failing_cycle hwk hfails.2.1, k, hk, hfails⟩

def loading (m : Machine) (rom : List UInt8) : Outcome :=
  m.load (rom.map fun b => (b.toNat : Int)) Memory.programStart

theorem loading_of_fits {m : Machine} (h : m.WellFormed) {rom : List UInt8}
    (hr : rom.length ≤ 3584) :
    (loading m rom).fault = none ∧ (loading m rom).machine.WellFormed := by
  have hb : (rom.map fun b => (b.toNat : Int)).all Memory.isByte = true := by
    simp only [List.all_map, List.all_eq_true, Function.comp, Memory.isByte, Bool.and_eq_true,
      decide_eq_true_eq]
    intro b _
    have hlt := b.toNat_lt
    omega
  have hfit : (0x200 : Int) + (rom.map fun b => (b.toNat : Int)).length ≤ 4096 := by
    rw [List.length_map]
    omega
  obtain ⟨n, hl, hn, -⟩ := h.load_of_fits (Int.le_refl _) hfit hb
  rw [loading, Memory.programStart, hl]
  exact ⟨rfl, hn⟩

theorem loading_of_long {m : Machine} (h : m.WellFormed) {rom : List UInt8}
    (hr : 3584 < rom.length) :
    (loading m rom).fault = some (.writeOutside 0x200 (0x200 + rom.length)) := by
  have hlong : (4096 : Int) < 0x200 + (rom.map fun b => (b.toNat : Int)).length := by
    rw [List.length_map]
    omega
  rw [loading, Memory.programStart, h.load_of_long (Int.le_refl _) hlong, List.length_map]
  rfl

theorem create_screen {m : Machine} (h : m.WellFormed) (scale : Int) : d.create m.screen scale =
    (d.opened (64 * scale) (32 * scale)).map fun w => d.filled w .background := by
  rw [Display.create, h.screen_width, h.screen_height]

section

variable (o : Options) (batches : List (List Input)) (level : Level)
variable {m : Machine} {rom : List UInt8}

theorem boot_of_long (h : m.WellFormed) (hr : 3584 < rom.length) :
    (Session.boot d o batches level m (.ok rom)).passes = [] ∧
    (Session.boot d o batches level m (.ok rom)).exit =
      some (.unloadable (.writeOutside 0x200 (0x200 + rom.length))) := by
  have hf := loading_of_long h hr
  rw [loading] at hf
  simp only [Session.boot, hf]
  exact ⟨rfl, rfl⟩

theorem boot_of_fits (h : m.WellFormed) (hr : rom.length ≤ 3584) :
    Session.boot d o batches level m (.ok rom) =
      Session.openWindow d o batches level (loading m rom) := by
  have hf := (loading_of_fits h hr).1
  rw [loading] at hf ⊢
  simp only [Session.boot, hf]

variable {o}

theorem boot_of_noWindow (h : m.WellFormed) (hr : rom.length ≤ 3584) {scale : Int}
    (hs : o.scale = .given scale) {r : Refusal}
    (hw : d.opened (64 * scale) (32 * scale) = .error r) :
    (Session.boot d o batches level m (.ok rom)).passes = [] ∧
    (Session.boot d o batches level m (.ok rom)).exit = some (.noWindow r) := by
  have hcreate := create_screen d (loading_of_fits h hr).2 scale
  rw [hw] at hcreate
  rw [boot_of_fits d o batches level h hr]
  simp only [Session.openWindow, hs, hcreate]
  exact ⟨rfl, rfl⟩

theorem boot_of_window (h : m.WellFormed) (hr : rom.length ≤ 3584) {scale cpuHz : Int}
    (hs : o.scale = .given scale) (hc : o.cpuHz = .given cpuHz) {w : Surface}
    (hw : d.opened (64 * scale) (32 * scale) = .ok w) :
    Session.boot d o batches level m (.ok rom) =
      Session.play d scale cpuHz batches level (loading m rom) (d.filled w .background) := by
  have hcreate := create_screen d (loading_of_fits h hr).2 scale
  rw [hw] at hcreate
  rw [boot_of_fits d o batches level h hr]
  simp only [Session.openWindow, hs, hc, hcreate]
  rfl

end

/-- A command line that is accepted, and the contents of the file that it names. No switch lacks
its value. -/
structure Invocation where
  debug : Bool
  arguments : List String
  read : String → Except Unreadable (List UInt8)
  file : String
  cpuHz : Int
  scale : Int
  seed : Option Int
  logged : Bool
  rom : List UInt8
  accepted : CommandLine.parse debug arguments =
    .ok ⟨.given file, .given cpuHz, .given scale, seed.map .given, logged⟩
  holds : read file = .ok rom

namespace Invocation

variable (i : Invocation) (draws : Nat → UInt8) (batches : List (List Input))

def options : Options :=
  ⟨.given i.file, .given i.cpuHz, .given i.scale, i.seed.map .given, i.logged⟩

def level : Level := if i.logged then .debug else .info

def run : Session.Report Surface Refusal :=
  Session.run d i.debug i.arguments i.read draws batches

theorem run_of_untitled {r : Refusal} (ht : d.titleRefusal? (Session.title i.file) = some r) :
    i.run d draws batches = Session.stillborn i.level [] none (.untitled r) := by
  simp only [run, Session.run, i.accepted, Session.start, ht]
  rfl

theorem run_eq_boot (ht : d.titleRefusal? (Session.title i.file) = none) : i.run d draws batches =
    Session.boot d i.options batches i.level (.fresh draws) (.ok i.rom) := by
  have hs : i.seed.map Value.given ≠ some .withheld := by
    cases i.seed <;> simp
  simp only [run, Session.run, i.accepted, Session.start, ht, hs, i.holds, if_false]
  rfl

/-- The session loads the program and follows the loop, unless the program is too long or the
display refuses the name of the file or the size of the window. -/
theorem run_follows :
    match d.titleRefusal? (Session.title i.file) with
    | some r => (i.run d draws batches).passes = [] ∧
        (i.run d draws batches).exit = some (.untitled r)
    | none =>
      if 3584 < i.rom.length then
        (i.run d draws batches).passes = [] ∧ (i.run d draws batches).exit =
          some (.unloadable (.writeOutside 0x200 (0x200 + i.rom.length)))
      else
        match d.opened (64 * i.scale) (32 * i.scale) with
        | .error r => (i.run d draws batches).passes = [] ∧
            (i.run d draws batches).exit = some (.noWindow r)
        | .ok _ => (loading (.fresh draws) i.rom).fault = none ∧ Follows d (i.run d draws batches)
            (turns i.cpuHz batches (loading (.fresh draws) i.rom).machine) i.cpuHz := by
  have h : (Machine.fresh draws).WellFormed := .fresh draws
  cases ht : d.titleRefusal? (Session.title i.file) with
  | some r =>
    rw [run_of_untitled d i draws batches ht]
    exact ⟨rfl, rfl⟩
  | none =>
    rw [run_eq_boot d i draws batches ht]
    simp only []
    split
    · next hr => exact boot_of_long d _ batches _ h hr
    · next hr =>
      have hfit := Nat.le_of_not_lt hr
      obtain ⟨hfault, hwell⟩ := loading_of_fits h hfit
      cases hw : d.opened (64 * i.scale) (32 * i.scale) with
      | error r => exact boot_of_noWindow d batches _ h hfit rfl hw
      | ok w =>
        rw [boot_of_window d batches _ h hfit rfl rfl hw]
        exact ⟨hfault, play_follows d hwell i.scale i.cpuHz batches _ _⟩

end Invocation

theorem not_follows_of_nil {r : Session.Report Surface Refusal} (h : r.passes = []) (cpuHz : Int)
    (batches : List (List Input)) (m : Machine) :
    ¬ Follows d r (turns cpuHz batches m) cpuHz := by
  intro hf
  have hp := hf.passes
  rw [h] at hp
  cases batches with
  | nil => cases hp
  | cons batch rest =>
    rw [turns] at hp
    split at hp <;> cases hp

def tooWide : Invocation where
  debug := false
  arguments := ["-f", "rom", "--scale", "257"]
  read := fun _ => .ok [0x12, 0x00]
  file := "rom"
  cpuHz := 500
  scale := 257
  seed := none
  logged := false
  rom := [0x12, 0x00]
  accepted := rfl
  holds := rfl

theorem passes_of_seed_withheld (arguments : List String) (o : Options)
    (hparse : CommandLine.parse false arguments = .ok o) (hseed : o.seed = some .withheld)
    {file : String} (hfile : o.file = .given file)
    (read : String → Except Unreadable (List UInt8)) (draws : Nat → UInt8)
    (batches : List (List Input)) :
    (Session.run d false arguments read draws batches).passes = [] := by
  simp only [Session.run, hparse, Session.start, hfile, hseed]
  cases d.titleRefusal? (Session.title file) <;> rfl

/-- Neither too wide a window nor a seed that is withheld keeps a command line from being accepted,
but both keep the session from its first pass, the latter by any display. -/
theorem not_follows_tooWide :
    (1 ≤ tooWide.scale ∧ tooWide.rom.length ≤ 3584 ∧
      ¬ Follows Window.screenless (tooWide.run Window.screenless (fun _ => 0) [])
        (turns 500 [] (loading (.fresh fun _ => 0) tooWide.rom).machine) 500) ∧
    (CommandLine.parse false ["-f", "rom", "--seed=--"] =
        .ok ⟨.given "rom", .given 500, .given 15, some .withheld, false⟩ ∧
      ∀ (Surface Refusal : Type) (d : Display Surface Refusal),
        ¬ Follows d (Session.run d false ["-f", "rom", "--seed=--"] tooWide.read (fun _ => 0) [])
          (turns 500 [] (loading (.fresh fun _ => 0) tooWide.rom).machine) 500) := by
  have ht : Window.screenless.titleRefusal? (Session.title tooWide.file) = none := by decide
  have hw : Window.screenless.opened (64 * tooWide.scale) (32 * tooWide.scale) =
      .error .outOfRange := rfl
  have hwide : (tooWide.run Window.screenless (fun _ => 0) []).passes = [] := by
    rw [Invocation.run_eq_boot _ _ _ _ ht]
    exact (boot_of_noWindow _ [] _ (.fresh _) (by decide) rfl hw).1
  have hparse : CommandLine.parse false ["-f", "rom", "--seed=--"] =
      .ok ⟨.given "rom", .given 500, .given 15, some .withheld, false⟩ := rfl
  refine ⟨⟨by decide, by decide, not_follows_of_nil _ hwide _ _ _⟩, hparse, fun _ _ d => ?_⟩
  exact not_follows_of_nil d (passes_of_seed_withheld d _ _ hparse rfl rfl _ _ _) _ _ _

def usual : Invocation where
  debug := false
  arguments := ["-f", "rom"]
  read := fun _ => .ok [0x12, 0x00]
  file := "rom"
  cpuHz := 500
  scale := 15
  seed := none
  logged := false
  rom := [0x12, 0x00]
  accepted := rfl
  holds := rfl

theorem follows_usual :
    Window.screenless.titleRefusal? (Session.title usual.file) = none ∧
    usual.rom.length ≤ 3584 ∧ (∃ w, Window.screenless.opened (64 * 15) (32 * 15) = .ok w) ∧
    Follows Window.screenless (usual.run Window.screenless (fun _ => 0) [])
      (turns 500 [] (loading (.fresh fun _ => 0) usual.rom).machine) 500 := by
  have ht : Window.screenless.titleRefusal? (Session.title usual.file) = none := by decide
  have hw : Window.screenless.opened (64 * usual.scale) (32 * usual.scale) =
      .ok (.plain 960 480 .background) := rfl
  have h := usual.run_follows Window.screenless (fun _ => 0) []
  rw [ht] at h
  simp only [] at h
  rw [if_neg (by decide), hw] at h
  exact ⟨ht, by decide, ⟨_, hw⟩, h.2⟩

end ChipEight.HostLoop
