/-!
# Powers

Powers of natural numbers and of integers are those of the core library, also where a module knows
of powers in other structures, so that `2 ^ 63` is the same term everywhere.
-/

attribute [instance (2000), default_instance 20000] instPowNat
