import Shmchan.Process.Focus

namespace process

/-- A shared object: its size, its contents, and who holds its advisory lock.
    The last two fields are history: the process that has created it, and under
    which name. -/
structure SharedObject (M : Type) where
  size : Nat := 0
  memory : M
  exclusive : Option Nat := none
  shared : List Nat := []
  maker : Option Nat := none
  name : String := ""

/-- Names for objects; `next` counts all that have ever been created. -/
structure ObjectSpace (M : Type) where
  linked : String → Option Nat := fun _ => none
  objects : Nat → SharedObject M
  next : Nat := 0

section

variable {M α : Type}

/-- What the locks of a process on an object leave when they are given up. -/
def SharedObject.unlock (pid : Nat) (o : SharedObject M) : SharedObject M :=
  { o with
    exclusive := if o.exclusive = some pid then none else o.exclusive
    shared := o.shared.filter (· ≠ pid) }

/-- A new size. An empty object gets blank contents, and so does one that is emptied. -/
def SharedObject.resize (blank : M) (size : Nat) (o : SharedObject M) : SharedObject M :=
  { o with size := size, memory := if size = 0 ∨ o.size = 0 then blank else o.memory }

namespace ObjectSpace

def set_object (object : Nat) (f : SharedObject M → SharedObject M) (s : ObjectSpace M) : ObjectSpace M :=
  { s with objects := Function.update s.objects object (f (s.objects object)) }

@[simp] theorem set_object_self (object : Nat) (f : SharedObject M → SharedObject M) (s : ObjectSpace M) :
    (s.set_object object f).objects object = f (s.objects object) :=
  Function.update_self _ _ _

theorem set_object_of_ne {object k : Nat} (hk : k ≠ object) (f : SharedObject M → SharedObject M)
    (s : ObjectSpace M) : (s.set_object object f).objects k = s.objects k :=
  Function.update_of_ne hk _ _

def set_memory (object : Nat) (f : M → M) (s : ObjectSpace M) : ObjectSpace M :=
  s.set_object object fun o => { o with memory := f o.memory }

/-- A new empty object takes the name. -/
def add_object (blank : M) (pid : Nat) (name : String) (s : ObjectSpace M) : ObjectSpace M :=
  { linked := Function.update s.linked name (some s.next)
    objects := Function.update s.objects s.next { memory := blank, maker := some pid, name := name }
    next := s.next + 1 }

/-- The kernel closes the descriptors of a killed process. -/
def on_death (pid : Nat) (s : ObjectSpace M) : ObjectSpace M :=
  { s with objects := fun object => (s.objects object).unlock pid }

end ObjectSpace

/-- Create an object under a name that nothing has. -/
def create_exclusive (blank : M) (pid : Nat) (name : String) : Prog (ObjectSpace M) (Option Nat) :=
  .modifyGet (fun s => if s.linked name = none then some s.next else none) fun s =>
    if s.linked name = none then s.add_object blank pid name else s

def find_object (name : String) : Prog (ObjectSpace M) (Option Nat) := .load fun s => s.linked name

/-- The result says whether the name denoted an object. -/
def remove_name (name : String) : Prog (ObjectSpace M) Bool :=
  .modifyGet (fun s => (s.linked name).isSome) fun s =>
    { s with linked := Function.update s.linked name none }

/-- Waits while another process holds the lock. -/
def lock_exclusive (pid object : Nat) : Prog (ObjectSpace M) Unit :=
  .act (fun s => (s.objects object).exclusive.isNone && (s.objects object).shared.isEmpty)
    (ObjectSpace.set_object object fun o => { o with exclusive := some pid }) fun _ => .ret ()

def lock_shared (pid object : Nat) : Prog (ObjectSpace M) Unit :=
  .act (fun s => (s.objects object).exclusive.isNone)
    (ObjectSpace.set_object object fun o => { o with shared := pid :: o.shared }) fun _ => .ret ()

def give_up_lock (pid object : Nat) : Prog (ObjectSpace M) Unit :=
  .store (ObjectSpace.set_object object (SharedObject.unlock pid))

def object_size (object : Nat) : Prog (ObjectSpace M) Nat := .load fun s => (s.objects object).size

def resize (blank : M) (object size : Nat) : Prog (ObjectSpace M) Unit :=
  .store (ObjectSpace.set_object object (SharedObject.resize blank size))

/-- Accesses to the contents of an object. -/
def on_object (object : Nat) (program : Prog M α) : Prog (ObjectSpace M) α :=
  program.focus (fun s => (s.objects object).memory) (ObjectSpace.set_memory object)

end

end process
