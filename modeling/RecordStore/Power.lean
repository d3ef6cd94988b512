/-!
# Powers of numbers

The bounds of machine words and the scales of decimal numbers are powers. They
are those of the core library in every module: a library that has powers of its
own, equal to these, does not change what a definition says by being imported
next to it.
-/

namespace RecordStore

attribute [scoped instance (1100)] instPowNat

attribute [default_instance 20000] instPowNat

end RecordStore
