import TimeSeries.Proofs.KeptCells

/-!
Lookups of a table, whoever made it, under whatever names, and with an index or without one. Dates
are stored as texts of a fixed width, so that the order in which the database compares them is that
of the calendar.
-/
namespace TimeSeries.Database

end TimeSeries.Database
